import FormDesign.Language

/-!
# Literals

The literals of the dialects. Texts are written between double quotes; a backslash stands before
quotes, backslashes and whatever would begin an interpolation, and control characters are written
by their letters.
-/

namespace FormDesign

namespace Text.Chars

/-- How one character is written between double quotes; `special` lists the characters that need a
backslash besides the quote and the backslash itself. -/
def escapeChar (special : List Char) (c : Char) : List Char :=
  if c = '\\' ∨ c = '"' then ['\\', c]
  else if c = '\n' then ['\\', 'n']
  else if c = '\t' then ['\\', 't']
  else if c = '\r' then ['\\', 'r']
  else if special.contains c then ['\\', c]
  else [c]

def escape (special s : List Char) : List Char :=
  s.flatMap (escapeChar special)

end Text.Chars

namespace Dialect

/-- The characters that begin an interpolation inside double quotes. -/
def interpolation : Dialect → List Char
  | .cpp | .python => []
  | .ruby => ['#']
  | .perl => ['$', '@']

/-- A text in double quotes. -/
def quoted (d : Dialect) (s : String) : String :=
  "\"" ++ String.ofList (Text.Chars.escape d.interpolation s.toList) ++ "\""

/-- The literal for a text. C++ has a name of its own for the empty text. -/
def textLiteral (d : Dialect) (s : String) : String :=
  match d with
  | .cpp => if s = "" then "wxEmptyString" else d.quoted s
  | .python | .ruby | .perl => d.quoted s

def boolLiteral : Dialect → Bool → String
  | .cpp, b | .ruby, b => if b then "true" else "false"
  | .python, b => if b then "True" else "False"
  | .perl, b => if b then "1" else "0"

def nullLiteral : Dialect → String
  | .cpp => "nullptr"
  | .python => "None"
  | .ruby => "nil"
  | .perl => "undef"

end Dialect

end FormDesign
