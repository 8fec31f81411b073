import FormDesign.Text.CaseTable

/-!
# Upper and lower case

The full case mappings of Unicode on whole texts. One letter may become several (`ß` is `SS` in
capitals), and a capital sigma at the end of a word has a lower case of its own.
-/

namespace FormDesign.Text

/-! ## Single characters -/

/-- The character a run of the table maps `n` to. -/
def mapByRuns (runs : List (Nat × Nat × Nat × Int)) (n : Nat) : Option Char :=
  (runs.find? fun (first, last, step, _) => first ≤ n && n ≤ last && (n - first) % step == 0).map
    fun (_, _, _, delta) => Char.ofNat (Int.ofNat n + delta).toNat

/-- The sequence the table lists for `n`. -/
def mapBySequences (sequences : List (Nat × List Nat)) (n : Nat) : Option (List Char) :=
  (sequences.find? fun (code, _) => code == n).map fun (_, target) => target.map Char.ofNat

/-- Whether `n` lies in one of the ranges. -/
def inRanges (ranges : List (Nat × Nat)) (n : Nat) : Bool :=
  ranges.any fun (first, last) => first ≤ n && n ≤ last

/-- The lower case of one character. -/
def lowerChar (c : Char) : List Char :=
  if c.toNat < 128 then [c.toLower]
  else
    match mapByRuns CaseTable.lowerRuns c.toNat with
    | some d => [d]
    | none => (mapBySequences CaseTable.lowerSequences c.toNat).getD [c]

/-- The upper case of one character. -/
def upperChar (c : Char) : List Char :=
  if c.toNat < 128 then [c.toUpper]
  else
    match mapByRuns CaseTable.upperRuns c.toNat with
    | some d => [d]
    | none => (mapBySequences CaseTable.upperSequences c.toNat).getD [c]

/-- Letters that come in upper, lower or title case. -/
def isCased (c : Char) : Bool :=
  if c.toNat < 128 then c.isAlpha else inRanges CaseTable.casedRanges c.toNat

/-- Characters the sigma rule looks through. -/
def isCaseIgnorable (c : Char) : Bool :=
  inRanges CaseTable.ignorableRanges c.toNat

/-! ## Texts -/

namespace Chars

/-- Whether the first character that is not looked through is a cased letter. -/
def meetsCased (s : List Char) : Bool :=
  (s.dropWhile isCaseIgnorable).head?.any isCased

/-- The lower case of `s`, where `seen` holds the characters before it, last first. A capital sigma
is final when a letter comes before it and none after it. -/
def lowerFrom (seen : List Char) : List Char → List Char
  | [] => []
  | c :: rest =>
    let image :=
      if c = 'Σ' then (if meetsCased seen && !meetsCased rest then ['ς'] else ['σ'])
      else lowerChar c
    image ++ lowerFrom (c :: seen) rest

def lower (s : List Char) : List Char :=
  lowerFrom [] s

def upper (s : List Char) : List Char :=
  s.flatMap upperChar

end Chars

def lower (s : String) : String :=
  String.ofList (Chars.lower s.toList)

def upper (s : String) : String :=
  String.ofList (Chars.upper s.toList)

end FormDesign.Text
