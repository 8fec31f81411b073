import FormDesign.Text.Blank

/-!
# Cutting text

Splitting at a separator, cutting at its first occurrence, looking for a piece of text at the
start or anywhere. The work is done on `List Char`; the versions on `String` wrap it.
-/

namespace FormDesign.Text

namespace Chars

/-- The pieces between the separators. There is one piece more than there are separators. -/
def splitOn (sep : Char) : List Char → List (List Char)
  | [] => [[]]
  | c :: rest =>
    if c = sep then [] :: splitOn sep rest
    else
      match splitOn sep rest with
      | [] => [[c]]
      | piece :: pieces => (c :: piece) :: pieces

theorem splitOn_ne_nil (sep : Char) (s : List Char) : splitOn sep s ≠ [] := by
  cases s with
  | nil => simp [splitOn]
  | cons c rest =>
    unfold splitOn
    split
    · simp
    · split <;> simp

/-- The pieces between the places where `sep` stands twice in a row. -/
def splitOnPair (sep : Char) : List Char → List (List Char)
  | [] => [[]]
  | [c] => [[c]]
  | c :: d :: rest =>
    if c = sep ∧ d = sep then [] :: splitOnPair sep rest
    else
      match splitOnPair sep (d :: rest) with
      | [] => [[c]]
      | piece :: pieces => (c :: piece) :: pieces

/-- What stands before and after the first separator, if there is one. -/
def cutAt? (sep : Char) : List Char → Option (List Char × List Char)
  | [] => none
  | c :: rest =>
    if c = sep then some ([], rest)
    else (cutAt? sep rest).map fun (before, after) => (c :: before, after)

/-- The rest of `s` after the start `p`. -/
def dropStart? (p s : List Char) : Option (List Char) :=
  if p.isPrefixOf s then some (s.drop p.length) else none

/-- Whether `piece` occurs somewhere in the text. -/
def contains (piece : List Char) : List Char → Bool
  | [] => piece.isEmpty
  | c :: rest => piece.isPrefixOf (c :: rest) || contains piece rest

end Chars

/-- The pieces between the separators. -/
def splitOn (sep : Char) (s : String) : List String :=
  (Chars.splitOn sep s.toList).map String.ofList

theorem splitOn_ne_nil (sep : Char) (s : String) : splitOn sep s ≠ [] := by
  simp [splitOn, Chars.splitOn_ne_nil]

/-- What stands before and after the first separator, if there is one. -/
def cutAt? (sep : Char) (s : String) : Option (String × String) :=
  (Chars.cutAt? sep s.toList).map fun (before, after) => (String.ofList before, String.ofList after)

def startsWith (s start : String) : Bool :=
  start.toList.isPrefixOf s.toList

def endsWith (s ending : String) : Bool :=
  ending.toList.isSuffixOf s.toList

/-- The rest of `s` after `start`, if `s` begins with it. -/
def dropStart? (s start : String) : Option String :=
  (Chars.dropStart? start.toList s.toList).map String.ofList

/-- The rest of `s` after `start`, or `s` itself when it begins otherwise. -/
def dropStart (s start : String) : String :=
  (dropStart? s start).getD s

/-- Whether `piece` occurs somewhere in `s`. -/
def contains (s piece : String) : Bool :=
  Chars.contains piece.toList s.toList

/-- Whether the first character satisfies `p`. -/
def startsWhere (s : String) (p : Char → Bool) : Bool :=
  s.toList.head?.any p

/-- The pieces between the separators, trimmed, without the empty ones. -/
def fields (sep : Char) (s : String) : List String :=
  ((splitOn sep s).map trim).filter (· ≠ "")

/-- The texts with `sep` between them. -/
def join (sep : String) (texts : List String) : String :=
  sep.intercalate texts

/-- A text repeated `n` times. -/
def times (n : Nat) (s : String) : String :=
  String.join (List.replicate n s)

/-! ## ASCII letters -/

/-- A text with ASCII capitals made small. -/
def asciiLower (s : String) : String :=
  s.map Char.toLower

end FormDesign.Text
