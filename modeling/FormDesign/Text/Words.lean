import FormDesign.Text.Cluster

/-!
# Words of an identifier

Cutting a name such as `HTTPServer2` or `save-as` into words, and joining them again in snake case.
Hyphens, underscores and spaces separate words and are dropped. A word also begins where small
letters turn to capitals, where letters meet digits, and before the last capital of a run that a
small letter follows.
-/

namespace FormDesign.Text

namespace Chars

/-- Clusters that stand between words. -/
def isSeparator (g : List Char) : Bool :=
  g == ['-'] || g == ['_'] || g == [' ']

/-- Whether a word begins between two neighbouring clusters. -/
def splitsPair (g h : List Char) : Bool :=
  (isLowerCluster g && (isUpperCluster h || isDigitCluster h))
    || (isUpperCluster g && isDigitCluster h)
    || (isDigitCluster g && (isUpperCluster h || isLowerCluster h))

/-- Whether a word begins at the last capital of a run: two capitals, then a small letter. -/
def splitsAcronym (g h : List Char) (next : Option (List Char)) : Bool :=
  isUpperCluster g && isUpperCluster h && next.any isLowerCluster

/-- Collects words from the clusters still to come. `before` is the cluster before them, `word` the
word begun, both written backwards cluster by cluster. -/
def wordsFrom (before : Option (List Char)) (word : List (List Char)) :
    List (List Char) → List (List Char)
  | [] => [word.reverse.flatten]
  | g :: rest =>
    if isSeparator g then
      word.reverse.flatten :: wordsFrom (some g) [] rest
    else if before.any fun b => splitsPair b g || splitsAcronym b g rest.head? then
      word.reverse.flatten :: wordsFrom (some g) [g] rest
    else
      wordsFrom (some g) (g :: word) rest

/-- The words of a name, in order. -/
def words (s : List Char) : List (List Char) :=
  (wordsFrom none [] (clusters s)).filter (· ≠ [])

end Chars

/-- The words of a name in small letters, with underscores between them. -/
def snakeCase (s : String) : String :=
  "_".intercalate ((Chars.words s.toList).map fun w => String.ofList (Chars.lower w))

/-- The words of a name in capitals, with underscores between them. -/
def upperSnakeCase (s : String) : String :=
  "_".intercalate ((Chars.words s.toList).map fun w => String.ofList (Chars.upper w))

end FormDesign.Text
