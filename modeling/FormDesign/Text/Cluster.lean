import FormDesign.Text.Case
import FormDesign.Text.ClusterTable

/-!
# Clusters

Text cut into user-perceived characters, which is what word boundaries and case are judged on. A
letter and its accents are one cluster; so are a leading mark and what follows it, and pictographs
with a joiner between them. A control stands alone, whatever is beside it. Letters without case,
such as the parts of a Hangul syllable, are clusters of their own here: how they are grouped decides
no boundary.
-/

namespace FormDesign.Text

/-! ## Classes of characters -/

/-- The zero-width joiner. -/
def joiner : Char := '\u200d'

/-- Accents and other characters that extend the one before. -/
def isAccent (c : Char) : Bool :=
  128 ≤ c.toNat && inRanges ClusterTable.accentRanges c.toNat

/-- Characters that belong to the cluster before them. -/
def isJoining (c : Char) : Bool :=
  c == joiner || isAccent c
    || (128 ≤ c.toNat && inRanges ClusterTable.spacingRanges c.toNat)

/-- Characters that draw the next one into their cluster. -/
def isLeading (c : Char) : Bool :=
  128 ≤ c.toNat && inRanges ClusterTable.leadingRanges c.toNat

/-- Pictographs, some of which are letters too. -/
def isPictograph (c : Char) : Bool :=
  128 ≤ c.toNat && inRanges ClusterTable.pictographRanges c.toNat

/-- Characters that neither join a cluster nor let another one join theirs. -/
def isControl (c : Char) : Bool :=
  inRanges ClusterTable.controlRanges c.toNat

/-! ## Cutting -/

/-- What a text ends in, as far as it concerns a pictograph that may follow. -/
inductive Ending
  | plain
  /-- A pictograph and its accents. -/
  | pictograph
  /-- A pictograph, its accents and a joiner. -/
  | joined
  deriving DecidableEq

namespace Ending

/-- The ending after one more character. -/
def next (e : Ending) (c : Char) : Ending :=
  if isPictograph c then .pictograph
  else if e = .pictograph then
    if isAccent c then .pictograph else if c = joiner then .joined else .plain
  else .plain

/-- Whether `d` stays in the cluster of `c`, where the text ends in `e` with `c`. -/
def joins (e : Ending) (c d : Char) : Bool :=
  !(isControl c || isControl d)
    && (isJoining d || isLeading c || (e == .joined && isPictograph d))

end Ending

namespace Chars

/-- The clusters from the character `c` on, where the text ends in `e` with `c`. -/
def clustersFrom (e : Ending) (c : Char) : List Char → List (List Char)
  | [] => [[c]]
  | d :: rest =>
    match clustersFrom (e.next d) d rest with
    | [] => [[c]]
    | g :: more => if e.joins c d then (c :: g) :: more else [c] :: g :: more

/-- The clusters of a text, in order. -/
def clusters : List Char → List (List Char)
  | [] => []
  | c :: rest => clustersFrom (Ending.plain.next c) c rest

theorem clustersFrom_ne_nil (e : Ending) (c : Char) (s : List Char) : clustersFrom e c s ≠ [] := by
  cases s with
  | nil => simp [clustersFrom]
  | cons d rest =>
    unfold clustersFrom
    split
    · simp
    · split <;> simp

theorem flatten_clustersFrom (e : Ending) (c : Char) (s : List Char) :
    (clustersFrom e c s).flatten = c :: s := by
  induction s generalizing e c with
  | nil => rfl
  | cons d rest ih =>
    have tail := ih (e.next d) d
    unfold clustersFrom
    split
    · rename_i h
      exact absurd h (clustersFrom_ne_nil (e.next d) d rest)
    · rename_i g more h
      rw [h] at tail
      split <;> simpa using tail

/-- Cutting into clusters loses nothing. -/
theorem flatten_clusters (s : List Char) : (clusters s).flatten = s := by
  cases s with
  | nil => rfl
  | cons c rest => exact flatten_clustersFrom (Ending.plain.next c) c rest

/-- A cluster in capitals: it has a case, and it is its own upper case. -/
def isUpperCluster (g : List Char) : Bool :=
  upper g != lower g && g == upper g

/-- A cluster in small letters: it has a case, and it is its own lower case. -/
def isLowerCluster (g : List Char) : Bool :=
  upper g != lower g && g == lower g

/-- A cluster of ASCII digits. -/
def isDigitCluster (g : List Char) : Bool :=
  g.all Char.isDigit

end Chars

end FormDesign.Text
