import FormDesign.Text.Split

/-!
# Layout of generated text

Generated text is described as a list of edits and laid out line by line: lines at the current
indentation, lines that are never indented, gaps of at most one blank line, and changes of the
indentation. A piece that was laid out on its own can be put into another one, and then takes on
its indentation.
-/

namespace FormDesign

/-- One line of a text. -/
structure Line where
  text : String
  /-- Never indented, not even as part of another text. -/
  flush : Bool
  deriving DecidableEq

/-- The lines of a text, with the indentation for those to come. -/
structure Lines where
  /-- What a line is indented with, once per level. -/
  unit : String
  lines : Array Line
  level : Nat

/-- One step of laying out a text. -/
inductive Edit
  /-- Lines at the current indentation; a line feed in the text starts a new one. -/
  | line (text : String)
  /-- A line without indentation. -/
  | flush (text : String)
  /-- A blank line, unless the text is empty or ends in one. -/
  | gap
  | indent
  | unindent
  /-- Drops the blank lines at the end. -/
  | trim
  deriving DecidableEq

namespace Lines

/-- The empty text. -/
def empty (unit : String) : Lines :=
  { unit, lines := #[], level := 0 }

def size (w : Lines) : Nat := w.lines.size

/-- The blanks before a line. -/
def margin (w : Lines) : String :=
  Text.times w.level w.unit

/-- Adds one line at the current indentation. Blank lines stay empty. -/
def putLine (w : Lines) (text : String) : Lines :=
  let text := if text = "" then "" else w.margin ++ text
  { w with lines := w.lines.push { text, flush := false } }

/-- The lines after the blank ones at the end were dropped. -/
def dropBlanks (lines : Array Line) : Array Line :=
  lines.popWhile fun l => l.text == ""

/-- Whether the last line holds any text. -/
def endsInText (w : Lines) : Bool :=
  w.lines.back?.any fun l => l.text != ""

def apply (w : Lines) : Edit → Lines
  | .line text => (Text.splitOn '\n' text).foldl putLine w
  | .flush text => { w with lines := w.lines.push { text, flush := true } }
  | .gap =>
    if w.endsInText then { w with lines := w.lines.push { text := "", flush := false } } else w
  | .indent => { w with level := w.level + 1 }
  | .unindent => { w with level := w.level - 1 }
  | .trim => { w with lines := dropBlanks w.lines }

/-- Lays out the edits one after the other. -/
def run (w : Lines) (edits : List Edit) : Lines :=
  edits.foldl apply w

/-- A line as part of a text with the given margin. -/
def nested (margin : String) (l : Line) : Line :=
  if l.flush || l.text == "" then l else { l with text := margin ++ l.text }

/-- Puts a text laid out on its own at the end, at the current indentation. -/
def append (w other : Lines) : Lines :=
  { w with lines := w.lines ++ other.lines.map (nested w.margin) }

/-- The finished text: no blank lines at the end, and one line feed after each line. -/
def finish (w : Lines) : String :=
  Text.join "\n" ((dropBlanks w.lines).toList.map Line.text) ++ "\n"

end Lines

/-- The text that edits lay out. -/
def Edit.render (unit : String) (edits : List Edit) : String :=
  ((Lines.empty unit).run edits).finish

/-- A line for each text. -/
def Edit.lines (texts : List String) : List Edit :=
  texts.map Edit.line

end FormDesign
