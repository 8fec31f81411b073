import FormDesign.Dialect.Spelling
import FormDesign.Proofs.Value
import FormDesign.Proofs.Words

/-!
# Identifiers as they are read and as they are spelled

An identifier is read from its trimmed text, but spelled from the text as it stands. Both take the
same name out of it, since trimming and cutting at an equals sign go along with each other. They
differ over blanks in front of a name of the stock, and over all that stands behind one.

* `Text.Chars.trim_takeWhile_trim`: cutting a trimmed text
* `Identifier.name_of_parse?`, `isStock_of_parse?`: what is read from a text
* `Dialect.expr_blank_iff`, `expr_own`: how texts without an identifier and those of the form's own
  identifiers are spelled
* `Dialect.spellsByName_iff`: when a stock identifier is spelled by its name
-/

namespace FormDesign

/-! ## Cutting and trimming -/

namespace Text.Chars

/-- What is cut off in front of the first separator, or the whole text. -/
theorem getD_fst_cutAt? (sep : Char) (s : List Char) :
    ((cutAt? sep s).map Prod.fst).getD s = s.takeWhile (· != sep) := by
  induction s with
  | nil => rfl
  | cons c rest ih =>
    unfold cutAt?
    by_cases hc : c = sep
    · simp [hc]
    · rw [if_neg hc, List.takeWhile_cons_of_pos (by simpa using hc), ← ih]
      cases cutAt? sep rest <;> rfl

section

variable {p : Char → Bool} (keeps : ∀ c, isBlank c = true → p c = true)

include keeps

/-- Blanks in front are no reason to stop. -/
theorem trimStart_takeWhile (s : List Char) :
    trimStart (s.takeWhile p) = (trimStart s).takeWhile p := by
  unfold trimStart
  induction s with
  | nil => rfl
  | cons c rest ih =>
    by_cases blank : isBlank c = true
    · rw [List.takeWhile_cons_of_pos (keeps c blank), List.dropWhile_cons_of_pos blank,
        List.dropWhile_cons_of_pos blank, ih]
    · rw [List.dropWhile_cons_of_neg blank]
      by_cases hp : p c = true
      · rw [List.takeWhile_cons_of_pos hp, List.dropWhile_cons_of_neg blank]
      · rw [List.takeWhile_cons_of_neg hp]
        rfl

/-- Blanks at the end stay in what is taken only if everything is. -/
theorem trimEnd_takeWhile_trimEnd (s : List Char) :
    trimEnd ((trimEnd s).takeWhile p) = trimEnd (s.takeWhile p) := by
  obtain ⟨blanks, hs, hblanks⟩ :
      ∃ blanks, trimEnd s ++ blanks = s ∧ ∀ c ∈ blanks, isBlank c = true :=
    ⟨_, List.rdropWhile_append_rtakeWhile, fun _ hc => List.mem_rtakeWhile_imp hc⟩
  have kept : blanks.takeWhile p = blanks :=
    List.takeWhile_eq_self_iff.2 fun c hc => keeps c (hblanks c hc)
  rw [← hs, List.takeWhile_append, kept, hs]
  split
  · next whole =>
    rw [(List.takeWhile_prefix p).eq_of_length whole]
    exact trimEnd_eq_self (getLast?_trimEnd s)
  · rfl

/-- Trimming first makes no difference. -/
theorem trim_takeWhile_trim (s : List Char) :
    trim ((trim s).takeWhile p) = trim (s.takeWhile p) := by
  have front : trimStart (trim s) = trim s := trimStart_eq_self (head?_trim s)
  calc trim ((trim s).takeWhile p)
      = trimEnd ((trimEnd (trimStart s)).takeWhile p) := by
        rw [trim, trimStart_takeWhile keeps, front, trim]
    _ = trimEnd ((trimStart s).takeWhile p) := trimEnd_takeWhile_trimEnd keeps _
    _ = trim (s.takeWhile p) := by rw [trim, trimStart_takeWhile keeps]

end

/-- A start without blanks stands in front of a text if and only if it does when the end of the text
is trimmed. -/
theorem prefix_trimEnd_iff {start : List Char} (solid : ∀ c ∈ start, isBlank c = false)
    (s : List Char) : start <+: trimEnd s ↔ start <+: s := by
  refine ⟨fun h => h.trans (List.rdropWhile_prefix isBlank s), ?_⟩
  rintro ⟨rest, rfl⟩
  have kept : start.reverse.dropWhile isBlank = start.reverse :=
    trimStart_eq_self fun c hc => solid c (List.mem_reverse.1 (List.mem_of_mem_head? hc))
  -- the end is trimmed from the back: the rest goes, or what stays of it follows the start
  rw [trimEnd, dropEndWhile, List.reverse_append, List.dropWhile_append, kept]
  split
  · exact ⟨[], by rw [List.append_nil, List.reverse_reverse]⟩
  · rw [List.reverse_append, List.reverse_reverse]
    exact List.prefix_append _ _

theorem prefix_takeWhile_iff {p : Char → Bool} {start : List Char}
    (taken : ∀ c ∈ start, p c = true) (s : List Char) : start <+: s.takeWhile p ↔ start <+: s := by
  refine ⟨fun h => h.trans (List.takeWhile_prefix p), ?_⟩
  rintro ⟨rest, rfl⟩
  rw [List.takeWhile_append_of_pos taken]
  exact List.prefix_append _ _

end Text.Chars

/-- A text starts with the first letter of its first part. -/
theorem Text.head?_append {s : String} {c : Char} (h : s.toList.head? = some c) (t : String) :
    (s ++ t).toList.head? = some c := by
  rw [String.toList_append, List.head?_append, h]
  rfl

/-! ## Reading -/

namespace Identifier

/-- The name in the text of an identifier: what stands before the first equals sign, trimmed. -/
def nameIn (text : String) : String :=
  Text.trim (String.ofList (text.toList.takeWhile (· != '=')))

theorem blank_ne_equals (c : Char) (h : Text.isBlank c = true) : (c != '=') = true := by
  refine bne_iff_ne.2 ?_
  rintro rfl
  cases h

theorem toList_nameIn (text : String) :
    (nameIn text).toList = Text.Chars.trim (text.toList.takeWhile (· != '=')) := by
  rw [nameIn, Text.trim, String.toList_ofList, String.toList_ofList]

theorem nameIn_trim (text : String) : nameIn (Text.trim text) = nameIn text := by
  rw [← String.toList_inj, toList_nameIn, toList_nameIn, Text.trim, String.toList_ofList]
  exact Text.Chars.trim_takeWhile_trim blank_ne_equals _

/-- The name in front of the equals sign, or the whole text without one. -/
theorem trim_before_eq (text : String) :
    Text.trim (((Text.cutAt? '=' text).map Prod.fst).getD text) = nameIn text := by
  rw [nameIn, ← Text.Chars.getD_fst_cutAt?, Text.cutAt?]
  cases Text.Chars.cutAt? '=' text.toList with
  | none => rw [Option.map_none, Option.map_none, Option.map_none, Option.getD_none,
      Option.getD_none, String.ofList_toList]
  | some parts => rfl

/-- A blank text holds no identifier. -/
theorem parse?_eq_none_iff {text : String} : parse? text = none ↔ Text.trim text = "" := by
  unfold parse?
  by_cases h : Text.trim text = ""
  · simp [h]
  · rw [if_neg h]
    split <;> simp [h]

/-- An identifier is read with the name in its text. -/
theorem name_of_parse? {text : String} {id : Identifier} (h : parse? text = some id) :
    id.name = nameIn text := by
  rw [← nameIn_trim, ← trim_before_eq]
  unfold parse? at h
  dsimp only at h
  split at h
  · cases h
  · split at h
    · next name literal heq =>
      obtain rfl := Option.some.inj h
      rw [heq]
      rfl
    · next heq =>
      obtain rfl := Option.some.inj h
      rw [heq]
      exact (Text.trim_trim text).symm

/-- How the stock begins, letter by letter. -/
theorem startsWith_stock_iff {text : String} :
    Text.startsWith text stockStart = true ↔ stockStart.toList <+: text.toList :=
  List.isPrefixOf_iff_prefix

theorem startsWith_nameIn (text : String) :
    Text.startsWith (nameIn text) stockStart
      = Text.startsWith (Text.trimStart text) stockStart := by
  have solid : ∀ c ∈ stockStart.toList, Text.isBlank c = false :=
    by simpa using (by decide : stockStart.toList.all (fun c => !Text.isBlank c) = true)
  have taken : ∀ c ∈ stockStart.toList, (c != '=') = true :=
    List.all_eq_true.1 (by decide : stockStart.toList.all (· != '=') = true)
  rw [Bool.eq_iff_iff, startsWith_stock_iff, startsWith_stock_iff, toList_nameIn, Text.trimStart,
    String.toList_ofList, Text.Chars.trim, Text.Chars.trimStart_takeWhile blank_ne_equals,
    Text.Chars.prefix_trimEnd_iff solid, Text.Chars.prefix_takeWhile_iff taken]

/-- An identifier is of the stock if its text begins like one, blanks aside. -/
theorem isStock_of_parse? {text : String} {id : Identifier} (h : parse? text = some id) :
    id.isStock = Text.startsWith (Text.trimStart text) stockStart := by
  rw [isStock, name_of_parse? h, startsWith_nameIn]

/-- A text that begins like the stock has no blanks in front. -/
theorem trimStart_of_startsWith {text : String} (h : Text.startsWith text stockStart = true) :
    Text.trimStart text = text := by
  obtain ⟨rest, hrest⟩ := startsWith_stock_iff.1 h
  rw [Text.trimStart, Text.Chars.trimStart_eq_self, String.ofList_toList]
  rw [← hrest]
  rintro c hc
  obtain rfl := Option.some.inj hc
  decide

/-- Behind the name of such a text are blanks, or blanks and an equals sign. -/
theorem exists_end {text : String} (h : Text.startsWith text stockStart = true) :
    ∃ tail, text.toList = (nameIn text).toList ++ tail ∧ Text.IsEnd tail := by
  let taken := text.toList.takeWhile (· != '=')
  let left := text.toList.dropWhile (· != '=')
  have front : Text.Chars.trimStart taken = taken := by
    have start : Text.Chars.trimStart text.toList = text.toList := by
      rw [← String.ofList_inj, String.ofList_toList]
      exact trimStart_of_startsWith h
    rw [Text.Chars.trimStart_takeWhile blank_ne_equals, start]
  have name : (nameIn text).toList = Text.Chars.trimEnd taken := by
    rw [toList_nameIn, Text.Chars.trim, front]
  obtain ⟨blanks, htaken, hblanks⟩ :
      ∃ blanks, Text.Chars.trimEnd taken ++ blanks = taken ∧ ∀ c ∈ blanks, Text.isBlank c = true :=
    ⟨_, List.rdropWhile_append_rtakeWhile, fun _ hc => List.mem_rtakeWhile_imp hc⟩
  refine ⟨blanks ++ left, ?_, ?_⟩
  · rw [name, ← List.append_assoc, htaken, List.takeWhile_append_dropWhile]
  · cases hleft : left with
    | nil =>
      rw [List.append_nil]
      exact ⟨fun c hc => Text.solid_of_isBlank (hblanks c (List.mem_of_mem_head? hc)), .inl hblanks⟩
    | cons c rest =>
      have stop := List.head?_dropWhile_not (· != '=') text.toList
      rw [show text.toList.dropWhile (· != '=') = c :: rest from hleft] at stop
      obtain rfl : c = '=' := by simpa using stop
      refine ⟨fun d hd => ?_, .inr (by simp)⟩
      cases blanks with
      | nil =>
        obtain rfl := Option.some.inj hd
        exact Text.solid_equals
      | cons b blanks =>
        obtain rfl := Option.some.inj hd
        exact Text.solid_of_isBlank (hblanks _ List.mem_cons_self)

theorem equals_not_mem_nameIn (text : String) : '=' ∉ (nameIn text).toList := by
  rw [toList_nameIn]
  intro h
  have taken := List.mem_takeWhile_imp (Text.Chars.mem_of_mem_trim h)
  cases taken

end Identifier

/-! ## Spelling -/

namespace Dialect

open Identifier

/-- An identifier where it is used, by the name in its text. -/
theorem expr_id (d : Dialect) (text : String) :
    d.expr (.id text) =
      if text = "" then d.constant "wxID_ANY"
      else if Text.startsWith text stockStart then d.constant text
      else d.customId (nameIn text) := by
  rw [expr, identifier, ← trim_before_eq]
  cases Text.cutAt? '=' text with
  | none => rfl
  | some parts => rfl

/-! ### Names of the stock -/

/-- A text that begins like the stock, with what stands behind the beginning. -/
theorem exists_stock {text : String} (h : Text.startsWith text stockStart = true) :
    ∃ rest, text = stockStart ++ rest := by
  obtain ⟨rest, hrest⟩ := startsWith_stock_iff.1 h
  refine ⟨String.ofList rest, ?_⟩
  rw [← String.toList_inj, ← hrest, String.toList_append, String.toList_ofList]

theorem dropStart?_append (start rest : String) :
    Text.dropStart? (start ++ rest) start = some rest := by
  rw [Text.dropStart?, Text.Chars.dropStart?, String.toList_append,
    if_pos (List.isPrefixOf_iff_prefix.2 (List.prefix_append _ _)), List.drop_left, Option.map_some,
    String.ofList_toList]

theorem bareName_stock (rest : String) : bareName (stockStart ++ rest) = "ID_" ++ rest := by
  have capital : Text.startsWhere ("ID_" ++ rest) (fun c => c.isUpper || c == '_') = true := by
    rw [Text.startsWhere, String.toList_append]
    rfl
  have parts : stockStart ++ rest = "wx" ++ ("ID_" ++ rest) := by
    rw [← String.append_assoc]
    rfl
  rw [bareName, parts, dropStart?_append]
  exact if_pos capital

theorem isToolkitName_stock (rest : String) : isToolkitName (stockStart ++ rest) = true := by
  rw [isToolkitName, bareName_stock, decide_eq_true_eq, ne_eq, String.append_left_inj]
  decide

theorem constantLibrary_stock (rest : String) : constantLibrary ("ID_" ++ rest) = .core := by
  simp [constantLibrary, constantLibraries, Text.startsWith, String.toList_append]

theorem constant_python_stock (rest : String) :
    constant .python (stockStart ++ rest) = "wx.ID_" ++ rest := by
  rw [constant, if_pos (isToolkitName_stock rest), bareName_stock, constantLibrary_stock,
    modulePath, ← String.append_assoc]
  rfl

/-- The constants of the other libraries do not begin with an I. -/
theorem constantLibrary_of_head {s : String}
    (first : (s.toList.filter (· ≠ '_')).head? = some 'I') : constantLibrary s = .core := by
  have starts : ∀ entry ∈ constantLibraries,
      (entry.1.toList.filter (· ≠ '_')).head?.isSome ∧
        (entry.1.toList.filter (· ≠ '_')).head? ≠ some 'I' := by
    decide
  unfold constantLibrary
  split
  · next start library found =>
    obtain ⟨letter, other⟩ := starts _ (List.mem_of_find?_eq_some found)
    have begins := List.find?_some found
    obtain ⟨rest, hrest⟩ := List.isPrefixOf_iff_prefix.1 begins
    rw [← hrest, List.filter_append, List.head?_append, Option.or_of_isSome letter] at first
    exact absurd first other
  · rfl

/-- Capitals leave the beginning of the stock in the core library. -/
theorem constantLibrary_capitals (rest : String) :
    constantLibrary (Text.capitals ("ID_" ++ rest)) = .core := by
  refine constantLibrary_of_head ?_
  have letters : ("ID_" ++ rest).toList = 'I' :: 'D' :: '_' :: rest.toList := by simp
  unfold Text.capitals
  split
  · obtain ⟨more, hclusters⟩ :=
      Text.Chars.exists_clusters_cons (c := 'I') (d := 'D') (by decide +kernel) ('_' :: rest.toList)
    rw [Text.filter_upperSnakeCase, letters, hclusters, Text.Chars.shownOf_cons]
    rfl
  · rw [letters]
    rfl

theorem constant_ruby_stock (rest : String) :
    constant .ruby (stockStart ++ rest) = "Wx::" ++ Text.capitals ("ID_" ++ rest) := by
  have library := constantLibrary_capitals rest
  unfold Text.capitals at library ⊢
  rw [constant, if_pos (isToolkitName_stock rest), bareName_stock]
  dsimp only
  rw [library]
  rfl

theorem head?_constant_ruby_stock (rest : String) :
    (constant .ruby (stockStart ++ rest)).toList.head? = some 'W' := by
  have module (library : Library) : (modulePath .ruby library).toList.head? = some 'W' := by
    cases library <;> rfl
  rw [constant, if_pos (isToolkitName_stock rest)]
  exact Text.head?_append (module _) _

/-! ### Stock identifiers -/

/-- Whether a stock identifier is spelled by its name, and not by the rest of its text. C++ and Perl
copy both, so blanks in front do no harm there. Ruby puts small letters in capitals, and by that
drops spaces at the end. -/
def SpellsByName (d : Dialect) (text : String) : Prop :=
  match d with
  | .cpp | .perl => Text.startsWith text stockStart = true → text = nameIn text
  | .python => text = nameIn text
  | .ruby => Text.startsWith text stockStart = true ∧
      (text = nameIn text ∨ (bareName (nameIn text)).toList.any Char.isLower = true ∧
        Text.IsSpaced (bareName (nameIn text)) (bareName text))

/-- When a stock identifier is spelled by its name. -/
theorem spellsByName_iff (d : Dialect) {text : String}
    (stock : Text.startsWith (Text.trimStart text) stockStart = true) :
    d.expr (.id text) = d.constant (nameIn text) ↔ d.SpellsByName text := by
  obtain ⟨name, hname⟩ := exists_stock ((startsWith_nameIn text).trans stock)
  have inhabited : text ≠ "" := by
    rintro rfl
    cases stock
  rw [expr_id, if_neg inhabited]
  by_cases start : Text.startsWith text stockStart = true
  · obtain ⟨rest, hrest⟩ := exists_stock start
    rw [if_pos start]
    cases d with
    | cpp | perl => exact ⟨fun heq _ => heq, fun h => h start⟩
    | python =>
      rw [SpellsByName, hname, hrest, constant_python_stock, constant_python_stock,
        String.append_right_inj, String.append_right_inj]
    | ruby =>
      obtain ⟨tail, htail, hend⟩ := exists_end start
      have htext : ("ID_" ++ rest).toList = ("ID_" ++ name).toList ++ tail := by
        rw [hname, hrest] at htail
        simpa [String.toList_append] using htail
      have plain : '=' ∉ ("ID_" ++ name).toList := by
        have absent := equals_not_mem_nameIn text
        rw [hname] at absent
        simp only [String.toList_append, List.mem_append, not_or] at absent ⊢
        exact ⟨by decide, absent.2⟩
      rw [SpellsByName, and_iff_right start, hname, hrest, constant_ruby_stock, constant_ruby_stock,
        bareName_stock, bareName_stock, String.append_right_inj, String.append_right_inj,
        Text.capitals_eq_iff (by simp) htext hend plain, String.append_right_inj]
  · -- with blanks in front it passes for an identifier of the form
    rw [if_neg start]
    cases d with
    | cpp | perl => exact iff_of_true rfl fun h => absurd h start
    | python =>
      refine iff_of_false (fun heq => ?_) fun heq => start ?_
      · rw [hname, constant_python_stock] at heq
        have first := congrArg (fun s => s.toList.head?) heq
        rw [Text.head?_append (show "wx.ID_".toList.head? = some 'w' from rfl),
          customId, Text.head?_append (show "self.".toList.head? = some 's' from rfl)] at first
        cases first
      · rw [heq, startsWith_nameIn]
        exact stock
    | ruby =>
      refine iff_of_false (fun heq => ?_) fun h => start h.1
      have first := congrArg (fun s => s.toList.head?) heq
      rw [hname, head?_constant_ruby_stock, customId,
        Text.head?_append (show stockStart.toList.head? = some 'w' from rfl)] at first
      cases first

/-! ### Other identifiers -/

theorem customId_empty_ne (d : Dialect) : d.customId "" ≠ d.constant "wxID_ANY" := by
  cases d <;> decide +kernel

/-- Of the texts that hold no identifier, only the empty one stands for any. -/
theorem expr_blank_iff (d : Dialect) {text : String} (blank : Text.trim text = "") :
    d.expr (.id text) = d.constant "wxID_ANY" ↔ text = "" := by
  rw [expr_id]
  by_cases empty : text = ""
  · simp [empty]
  · have name : nameIn text = "" := by
      rw [← nameIn_trim, blank]
      rfl
    have start : ¬Text.startsWith text stockStart = true := by
      intro start
      have stock := startsWith_nameIn text
      rw [trimStart_of_startsWith start, start, name] at stock
      cases stock
    rw [if_neg empty, if_neg start, name]
    exact iff_of_false d.customId_empty_ne empty

/-- An identifier that is none of the stock is spelled by its name. -/
theorem expr_own (d : Dialect) {text : String} {id : Identifier} (h : parse? text = some id)
    (own : id.isStock = false) : d.expr (.id text) = d.customId id.name := by
  rw [isStock_of_parse? h] at own
  have inhabited : text ≠ "" := by
    rintro rfl
    cases h
  have start : ¬Text.startsWith text stockStart = true := by
    intro start
    rw [trimStart_of_startsWith start, start] at own
    cases own
  rw [expr_id, if_neg inhabited, if_neg start, name_of_parse? h]

end Dialect

end FormDesign
