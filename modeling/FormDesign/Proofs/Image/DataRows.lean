import FormDesign.Dialect.Picture
import FormDesign.Proofs.Value

/-!
# Rows of image data

The bytes of an embedded image stand between the first and the last line of its array, as decimal
numbers in rows of 24. Whoever reads the rows line by line gets the bytes back. All dialects allow a
comma behind the last number of a row; C++ leaves out the one at the very end, and declares how many
numbers there are.

* `flatten_rowsOf`, `length_of_mem_dropLast_rowsOf`: a list that is cut into rows
* `Text.lineNumbers?`: a reader of rows
* `Dialect.imageData_decodes`: what is read from the data of an image
-/

namespace FormDesign

/-! ## Rows -/

section Rows

variable {α : Type} {n : Nat}

@[simp] theorem rowsOf_nil (n : Nat) : rowsOf n ([] : List α) = [] := by
  rw [rowsOf]

theorem rowsOf_cons (n : Nat) (a : α) (rest : List α) :
    rowsOf n (a :: rest) = (a :: rest.take (n - 1)) :: rowsOf n (rest.drop (n - 1)) := by
  rw [rowsOf]

/-- The rows hold the items in their order. -/
theorem flatten_rowsOf (n : Nat) (items : List α) : (rowsOf n items).flatten = items := by
  fun_induction rowsOf n items with
  | case1 => rfl
  | case2 a rest ih => rw [List.flatten_cons, ih, List.cons_append, List.take_append_drop]

theorem ne_nil_of_mem_rowsOf {items row : List α} (h : row ∈ rowsOf n items) : row ≠ [] := by
  fun_induction rowsOf n items with
  | case1 => cases h
  | case2 a rest ih =>
    rcases List.mem_cons.1 h with rfl | h
    · exact List.cons_ne_nil _ _
    · exact ih h

theorem length_le_of_mem_rowsOf (pos : 0 < n) {items row : List α} (h : row ∈ rowsOf n items) :
    row.length ≤ n := by
  fun_induction rowsOf n items with
  | case1 => cases h
  | case2 a rest ih =>
    rcases List.mem_cons.1 h with rfl | h
    · rw [List.length_cons, List.length_take]
      omega
    · exact ih h

/-- A row is full if another one follows it. -/
theorem length_of_mem_dropLast_rowsOf (pos : 0 < n) {items row : List α}
    (h : row ∈ (rowsOf n items).dropLast) : row.length = n := by
  fun_induction rowsOf n items with
  | case1 => cases h
  | case2 a rest ih =>
    cases more : rest.drop (n - 1) with
    | nil =>
      rw [more, rowsOf_nil] at h
      cases h
    | cons b left =>
      rw [more, rowsOf_cons, List.dropLast_cons_cons, ← rowsOf_cons, ← more] at h
      rcases List.mem_cons.1 h with rfl | h
      · have := congrArg List.length more
        rw [List.length_drop, List.length_cons] at this
        rw [List.length_cons, List.length_take]
        omega
      · exact ih h

end Rows

/-! ## Reading a row -/

namespace Text

/-- A number without a sign. -/
def decimal? (s : String) : Option Nat :=
  if s = "" then none else Numeral.digits? 0 s.toList

/-- The numbers of a line, with commas between them and possibly one behind the last. -/
def lineNumbers? (line : String) : Option (List Nat) :=
  let pieces := splitOn ',' (trim line)
  (if pieces.getLast? = some "" then pieces.dropLast else pieces).mapM decimal?

theorem toList_toString (n : Nat) : (toString n).toList = Nat.toDigits 10 n := by
  rw [Nat.toString_eq_ofList_toDigits, String.toList_ofList]

theorem isDigit_of_mem_toString {n : Nat} {c : Char} (h : c ∈ (toString n).toList) :
    c.isDigit = true := by
  rw [toList_toString] at h
  exact Numeral.isDigit_of_mem_toDigits h

theorem toString_ne_empty (n : Nat) : toString n ≠ "" := by
  intro empty
  obtain ⟨c, rest, digits, -⟩ := Numeral.exists_toDigits n
  rw [← toList_toString, empty] at digits
  cases digits

theorem decimal?_toString (n : Nat) : decimal? (toString n) = some n := by
  rw [decimal?, if_neg (toString_ne_empty n), toList_toString, Numeral.digits?_toDigits]

theorem trim_indented {indent s : String} (blank : ∀ c ∈ indent.toList, isBlank c = true)
    (solid : ∀ c ∈ s.toList, isBlank c = false) : trim (indent ++ s) = s := by
  have front : Chars.trimStart (indent ++ s).toList = s.toList := by
    rw [String.toList_append, Chars.trimStart, List.dropWhile_append_of_pos blank]
    exact Chars.trimStart_eq_self fun c hc => solid c (List.mem_of_mem_head? hc)
  rw [trim, Chars.trim, front,
    Chars.trimEnd_eq_self fun c hc => solid c (List.mem_of_mem_getLast? hc), String.ofList_toList]

/-- Numbers with commas between them. -/
def numberRow (numbers : List Nat) : String :=
  join "," (numbers.map toString)

variable {numbers : List Nat}

theorem splitOn_numberRow (inhabited : numbers ≠ []) :
    splitOn ',' (numberRow numbers) = numbers.map toString := by
  refine splitOn_join (by simpa using inhabited) (List.forall_mem_map.2 fun n _ comma => ?_)
  cases isDigit_of_mem_toString comma

theorem mem_numberRow {c : Char} (h : c ∈ (numberRow numbers).toList) :
    c.isDigit = true ∨ c = ',' := by
  have comma : ∀ c ∈ ",".toList, c.isDigit = true ∨ c = ',' :=
    fun c hc => Or.inr (List.mem_singleton.1 hc)
  refine forall_mem_join comma (List.forall_mem_map.2 fun n _ c hc => ?_) c h
  exact Or.inl (isDigit_of_mem_toString hc)

/-- A row ends in a digit. -/
theorem getLast?_numberRow (inhabited : numbers ≠ []) :
    ∃ c, (numberRow numbers).toList.getLast? = some c ∧ c.isDigit = true := by
  unfold numberRow join
  induction numbers with
  | nil => exact absurd rfl inhabited
  | cons n rest ih =>
    cases rest with
    | nil =>
      rw [List.map_singleton, String.intercalate_singleton]
      have digits : (toString n).toList ≠ [] := fun none =>
        toString_ne_empty n (String.toList_inj.1 none)
      exact ⟨_, List.getLast?_eq_some_getLast digits,
        isDigit_of_mem_toString (List.getLast_mem digits)⟩
    | cons next rest =>
      obtain ⟨c, last, digit⟩ := ih (List.cons_ne_nil next rest)
      rw [List.map_cons, List.map_cons, String.intercalate_cons_cons, ← List.map_cons,
        String.toList_append, List.getLast?_append, last]
      exact ⟨c, rfl, digit⟩

theorem mapM_map_eq_some {α β γ : Type} {read : β → Option γ} {write : α → β} {value : α → γ}
    {items : List α} (each : ∀ item ∈ items, read (write item) = some (value item)) :
    (items.map write).mapM read = some (items.map value) := by
  induction items with
  | nil => rfl
  | cons item rest ih =>
    rw [List.forall_mem_cons] at each
    rw [List.map_cons, List.mapM_cons, each.1, ih each.2]
    rfl

theorem mapM_decimal? (numbers : List Nat) :
    (numbers.map toString).mapM decimal? = some numbers := by
  have each : ∀ n ∈ numbers, decimal? (toString n) = some (id n) := fun n _ => decimal?_toString n
  rw [mapM_map_eq_some each, List.map_id]

/-- A row is read from its line, indented or not, and with a comma at the end or without. -/
theorem lineNumbers?_eq (inhabited : numbers ≠ []) {indent ending : String}
    (blank : ∀ c ∈ indent.toList, isBlank c = true) (comma : ending = "," ∨ ending = "") :
    lineNumbers? (indent ++ numberRow numbers ++ ending) = some numbers := by
  have solid : ∀ c ∈ (numberRow numbers ++ ending).toList, isBlank c = false := by
    intro c hc
    have plain : c.isDigit = true ∨ c = ',' := by
      rw [String.toList_append, List.mem_append] at hc
      rcases comma with rfl | rfl
      · exact hc.elim mem_numberRow fun last => Or.inr (List.mem_singleton.1 last)
      · exact hc.elim mem_numberRow fun none => absurd none List.not_mem_nil
    rcases plain with digit | rfl
    · exact isBlank_of_isDigit digit
    · rfl
  have pieces := splitOn_numberRow inhabited
  rw [lineNumbers?, String.append_assoc, trim_indented blank solid]
  rcases comma with rfl | rfl
  · have more : splitOn ',' (numberRow numbers ++ ",") = numbers.map toString ++ [""] := by
      rw [← pieces, ← String.append_empty (s := numberRow numbers ++ ",")]
      exact splitOn_append ',' (numberRow numbers) ""
    simp only [more, List.getLast?_concat, List.dropLast_concat, if_true, mapM_decimal?]
  · have last : (numbers.map toString).getLast? ≠ some "" := by
      intro empty
      obtain ⟨n, -, hn⟩ := List.mem_map.1 (List.mem_of_getLast? empty)
      exact toString_ne_empty n hn
    simp only [String.append_empty, pieces, if_neg last, mapM_decimal?]

/-- The number in the last brackets of a line. -/
def bracketed? (line : String) : Option Nat :=
  let front := (line.toList.reverse.dropWhile (· != ']')).drop 1
  decimal? (String.ofList (front.takeWhile (· != '[')).reverse)

theorem bracketed?_eq (front : String) (n : Nat) {ending : String} {rest : List Char}
    (close : ending.toList = ']' :: rest) (plain : ']' ∉ rest) :
    bracketed? (front ++ "[" ++ toString n ++ ending) = some n := by
  have digits : ∀ c ∈ (toString n).toList.reverse, (c != '[') = true := by
    intro c hc
    refine bne_iff_ne.2 ?_
    rintro rfl
    cases isDigit_of_mem_toString (List.mem_reverse.1 hc)
  have skipped : ∀ c ∈ rest.reverse, (c != ']') = true := by
    intro c hc
    refine bne_iff_ne.2 ?_
    rintro rfl
    exact plain (List.mem_reverse.1 hc)
  have backwards : (front ++ "[" ++ toString n ++ ending).toList.reverse
      = rest.reverse ++ ']' :: ((toString n).toList.reverse ++ '[' :: front.toList.reverse) := by
    simp [String.toList_append, close]
  rw [bracketed?, backwards, List.dropWhile_append_of_pos skipped,
    List.dropWhile_cons_of_neg (by decide), List.drop_one, List.tail_cons,
    List.takeWhile_append_of_pos digits, List.takeWhile_cons_of_neg (by decide), List.append_nil,
    List.reverse_reverse, String.ofList_toList, decimal?_toString]

end Text

/-! ## Data of an image -/

namespace Dialect

open Text

/-- The numbers in the rows of an image. -/
def numberRows (a : Asset) : List (List Nat) :=
  (rowsOf 24 a.payload).map fun row => row.map UInt8.toNat

theorem byteRows_eq (a : Asset) : byteRows a.payload = (numberRows a).map numberRow := by
  simp only [byteRows, numberRows, numberRow, List.map_map, Function.comp_def]

theorem flatten_numberRows (a : Asset) : (numberRows a).flatten = a.payload.map UInt8.toNat := by
  rw [numberRows, ← List.map_flatten, flatten_rowsOf]

theorem length_of_mem_numberRows {a : Asset} {row : List Nat} (h : row ∈ numberRows a) :
    1 ≤ row.length ∧ row.length ≤ 24 := by
  obtain ⟨bytes, hbytes, rfl⟩ := List.mem_map.1 h
  rw [List.length_map]
  exact ⟨List.length_pos_iff.2 (ne_nil_of_mem_rowsOf hbytes),
    length_le_of_mem_rowsOf (by decide) hbytes⟩

theorem length_of_mem_dropLast_numberRows {a : Asset} {row : List Nat}
    (h : row ∈ (numberRows a).dropLast) : row.length = 24 := by
  rw [numberRows, ← List.map_dropLast] at h
  obtain ⟨bytes, hbytes, rfl⟩ := List.mem_map.1 h
  rw [List.length_map]
  exact length_of_mem_dropLast_rowsOf (by decide) hbytes

/-- How the lines of data are indented. -/
def dataIndent : Dialect → String
  | .cpp => "\t"
  | .python | .perl => "    "
  | .ruby => "  "

/-- The line of a row, given its place among so many rows. In C++ the last one ends without a
comma. -/
def dataLine (d : Dialect) (count : Nat) (row : List Nat × Nat) : String :=
  d.dataIndent ++ numberRow row.1 ++ if d = .cpp ∧ count ≤ row.2 + 1 then "" else ","

/-- The lines of data, one for each row. -/
def dataLines (d : Dialect) (a : Asset) : List String :=
  (numberRows a).zipIdx.map (d.dataLine (numberRows a).length)

/-- Where every line ends in a comma, the place of a row does not matter. -/
theorem dataLines_eq_map {d : Dialect} (other : d ≠ .cpp) (a : Asset) :
    d.dataLines a = (byteRows a.payload).map fun row => d.dataIndent ++ row ++ "," := by
  have line (row : List Nat × Nat) :
      d.dataLine (numberRows a).length row = d.dataIndent ++ numberRow row.1 ++ "," := by
    rw [dataLine, if_neg fun h => other h.1]
  rw [dataLines, List.map_congr_left fun row _ => line row, byteRows_eq, List.map_map]
  conv_rhs => rw [← List.zipIdx_map_fst 0 (numberRows a), List.map_map]
  rfl

theorem dataLines_cpp (a : Asset) : cpp.dataLines a
    = (byteRows a.payload).zipIdx.map fun (text, i) =>
        "\t" ++ text ++ (if i + 1 < (byteRows a.payload).length then "," else "") := by
  rw [dataLines, byteRows_eq, List.length_map, List.zipIdx_map, List.map_map]
  refine List.map_congr_left fun row _ => ?_
  simp only [dataLine, dataIndent, true_and, Function.comp_apply, Prod.map, id]
  split_ifs with last more more
  · omega
  · rfl
  · rfl
  · omega

theorem imageData_eq (d : Dialect) (a : Asset) :
    ∃ first last, d.imageData a = first :: (d.dataLines a ++ [last]) ∧
      (d = .cpp → bracketed? first = some a.payload.length) := by
  cases d with
  | cpp =>
    rw [dataLines_cpp]
    exact ⟨_, _, rfl, fun _ => bracketed?_eq _ a.payload.length rfl (by decide)⟩
  | python =>
    rw [dataLines_eq_map (by decide)]
    exact ⟨_, _, rfl, nofun⟩
  | ruby =>
    rw [dataLines_eq_map (by decide)]
    exact ⟨_, _, rfl, nofun⟩
  | perl =>
    rw [dataLines_eq_map (by decide)]
    exact ⟨_, _, rfl, nofun⟩

theorem mapM_dataLines (d : Dialect) (a : Asset) :
    (d.dataLines a).mapM lineNumbers? = some (numberRows a) := by
  have blank : ∀ c ∈ d.dataIndent.toList, isBlank c = true := by
    cases d <;> exact List.all_eq_true.1 (by decide)
  have line : ∀ row ∈ (numberRows a).zipIdx,
      lineNumbers? (d.dataLine (numberRows a).length row) = some row.1 := by
    intro row hrow
    have member : row.1 ∈ numberRows a := by
      rw [← List.zipIdx_map_fst 0 (numberRows a)]
      exact List.mem_map_of_mem hrow
    refine lineNumbers?_eq (List.length_pos_iff.1 (length_of_mem_numberRows member).1) blank ?_
    split
    · exact Or.inr rfl
    · exact Or.inl rfl
  rw [dataLines, mapM_map_eq_some line, List.zipIdx_map_fst]

theorem exists_row_of_getElem? {d : Dialect} {a : Asset} {i : Nat} {line : String}
    (h : (d.dataLines a)[i]? = some line) :
    ∃ row ∈ numberRows a, line = d.dataLine (numberRows a).length (row, i) := by
  rw [dataLines, List.getElem?_map, List.getElem?_zipIdx, Option.map_map, Nat.zero_add] at h
  obtain ⟨row, hrow, rfl⟩ := Option.map_eq_some_iff.1 h
  exact ⟨row, List.mem_of_getElem? hrow, rfl⟩

/-- In C++ a comma ends every line but the last. -/
theorem getLast?_dataLines_cpp (a : Asset) :
    (∀ line ∈ (cpp.dataLines a).dropLast, line.toList.getLast? = some ',') ∧
      ∀ line ∈ (cpp.dataLines a).getLast?, line.toList.getLast? ≠ some ',' := by
  have count : (cpp.dataLines a).length = (numberRows a).length := by
    rw [dataLines, List.length_map, List.length_zipIdx]
  constructor
  · intro line hline
    obtain ⟨i, hi⟩ := List.mem_iff_getElem?.1 hline
    rw [List.getElem?_dropLast, count] at hi
    split at hi
    next followed =>
      obtain ⟨row, -, rfl⟩ := exists_row_of_getElem? hi
      have more : ¬ ((cpp : Dialect) = .cpp ∧ (numberRows a).length ≤ i + 1) := by omega
      rw [dataLine, if_neg more, String.toList_append]
      exact List.getLast?_concat
    next => cases hi
  · intro line hline comma
    rw [Option.mem_def, List.getLast?_eq_getElem?, count] at hline
    obtain ⟨row, member, rfl⟩ := exists_row_of_getElem? hline
    have last : (cpp : Dialect) = .cpp ∧ (numberRows a).length ≤ (numberRows a).length - 1 + 1 :=
      ⟨rfl, by omega⟩
    rw [dataLine, if_pos last, String.append_empty, String.toList_append, List.getLast?_append]
      at comma
    have inhabited := List.length_pos_iff.1 (length_of_mem_numberRows member).1
    obtain ⟨c, hc, digit⟩ := getLast?_numberRow inhabited
    rw [hc] at comma
    cases comma
    cases digit

/-- **The data of an image is read back from its lines**: those between the first and the last one
hold the bytes, in rows of 24 of which only the last one may be shorter. In C++ the first line says
how many bytes there are, and commas stand between them. -/
theorem imageData_decodes (d : Dialect) (a : Asset) :
    ∃ first lines last rows, d.imageData a = first :: (lines ++ [last]) ∧
      lines.mapM lineNumbers? = some rows ∧ rows.flatten = a.payload.map UInt8.toNat ∧
      (∀ row ∈ rows, 1 ≤ row.length ∧ row.length ≤ 24) ∧
      (∀ row ∈ rows.dropLast, row.length = 24) ∧
      (d = .cpp → bracketed? first = some a.payload.length ∧
        (∀ line ∈ lines.dropLast, line.toList.getLast? = some ',') ∧
        ∀ line ∈ lines.getLast?, line.toList.getLast? ≠ some ',') := by
  obtain ⟨first, last, hlines, declared⟩ := imageData_eq d a
  refine ⟨first, d.dataLines a, last, numberRows a, hlines, mapM_dataLines d a,
    flatten_numberRows a, fun _ => length_of_mem_numberRows,
    fun _ => length_of_mem_dropLast_numberRows, ?_⟩
  rintro rfl
  exact ⟨declared rfl, getLast?_dataLines_cpp a⟩

end Dialect

end FormDesign
