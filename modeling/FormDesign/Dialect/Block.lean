import FormDesign.Dialect.Spelling
import FormDesign.Layout
import FormDesign.Platform

/-!
# Blocks

Indented parts of a text: how a dialect opens and closes them, and how lines are confined to some
platforms. C++ uses preprocessor lines for the latter, which are never indented.
-/

namespace FormDesign

/-- How a language shows the extent of a block. -/
inductive BlockStyle
  | braces
  /-- The indentation alone. -/
  | indentation
  /-- A closing `end`. -/
  | closingWord
  deriving DecidableEq

def BlockStyle.name : BlockStyle → String
  | .braces => "Braces"
  | .indentation => "Indentation"
  | .closingWord => "KeywordEnd"

namespace Dialect

/-- The indentation of one level. -/
def indentUnit : Dialect → String
  | .cpp => "\t"
  | .python | .perl => "    "
  | .ruby => "  "

def blockStyle : Dialect → BlockStyle
  | .cpp | .perl => .braces
  | .python => .indentation
  | .ruby => .closingWord

/-- Opens a block. The brace of Perl stands on the line of the header. -/
def openBlock (d : Dialect) (header : String) : List Edit :=
  match d with
  | .cpp => [.line header, .line "\x7b", .indent]
  | .python | .ruby => [.line header, .indent]
  | .perl => [.line (header ++ " \x7b"), .indent]

def closeBlock (d : Dialect) : List Edit :=
  match d.blockStyle with
  | .braces => [.unindent, .line "\x7d"]
  | .indentation => [.unindent]
  | .closingWord => [.unindent, .line "end"]

/-- A block around some lines. -/
def block (d : Dialect) (header : String) (body : List Edit) : List Edit :=
  d.openBlock header ++ body ++ d.closeBlock

/-! ## Platforms -/

/-- The line that confines what follows to some platforms. -/
def platformCondition (d : Dialect) (platforms : List Platform) : String :=
  match d, platforms with
  | .cpp, [] => "#if 0"
  | .cpp, ps => "#if " ++ Text.join " || " (ps.map fun p => "defined(" ++ p.define ++ ")")
  | .python, [] => "if False:"
  | .python, ps =>
    "if " ++ Text.join " or " (ps.map fun p => "wx.Platform == \"" ++ p.pythonName ++ "\"") ++ ":"
  | .ruby, [] => "if false"
  | .ruby, ps => "if RUBY_PLATFORM =~ /" ++ Text.join "|" (ps.map Platform.osPattern) ++ "/"
  | .perl, [] => "if (0)"
  | .perl, ps => "if ($^O =~ /" ++ Text.join "|" (ps.map Platform.osPattern) ++ "/i)"

/-- Begins the part that is confined to the platforms of a selector. -/
def beginPlatform (d : Dialect) (selector : String) : List Edit :=
  let condition := d.platformCondition (Platform.ofSelector selector)
  match d with
  | .cpp => [.flush condition]
  | .python | .ruby | .perl => d.openBlock condition

/-- Ends the part that is confined to the platforms of a selector. -/
def endPlatform (d : Dialect) (selector : String) : List Edit :=
  match d with
  | .cpp => [.flush ("#endif  // " ++ selector)]
  | .python | .ruby | .perl => d.closeBlock

/-- A part that is confined to the platforms of a selector. -/
def onPlatform (d : Dialect) (selector : String) (body : List Edit) : List Edit :=
  d.beginPlatform selector ++ body ++ d.endPlatform selector

end Dialect

end FormDesign
