import FormDesign.Text.Split
import FormDesign.Xml.Basic

/-!
# Printing XML

Every tag and every comment begins a line of its own, indented by its depth, unless a text comes
directly before it. Without indentation nothing is added between the tags.
-/

namespace FormDesign

/-- How a document is indented. -/
inductive Indentation
  | tab
  | twoSpaces
  /-- Everything on one line. -/
  | none
  deriving DecidableEq

namespace Indentation

/-- The line break before a tag at some depth. -/
def lineBreak (depth : Nat) : Indentation → String
  | .tab => "\n" ++ Text.times depth "\t"
  | .twoSpaces => "\n" ++ Text.times depth "  "
  | .none => ""

end Indentation

namespace Xml

/-! ## Escapes -/

/-- How a character is written in texts and attribute values. -/
def escapeChar : Char → List Char
  | '<' => "&lt;".toList
  | '>' => "&gt;".toList
  | '&' => "&amp;".toList
  | '\x27' => "&apos;".toList
  | '"' => "&quot;".toList
  | c => [c]

def escape (s : String) : String :=
  String.ofList (s.toList.flatMap escapeChar)

/-! ## Nodes -/

/-- The attributes of a start tag. -/
def printAttributes (attributes : List (String × String)) : String :=
  String.join (attributes.map fun (name, value) => " " ++ name ++ "=\"" ++ escape value ++ "\"")

mutual

/-- A node at some depth. `glued` tells that a text comes directly before it. -/
def print (style : Indentation) (depth : Nat) (glued : Bool) : Xml → String
  | .comment text =>
    (if glued then "" else style.lineBreak depth) ++ "<!--" ++ text ++ "-->"
  | .element name attributes text children =>
    let start :=
      (if glued then "" else style.lineBreak depth) ++ "<" ++ name ++ printAttributes attributes
    if text.isNone && children.isEmpty then start ++ "/>"
    else
      start ++ ">" ++ (text.map escape).getD ""
        ++ printAll style (depth + 1) text.isSome children
        ++ (if children.isEmpty then "" else style.lineBreak depth)
        ++ "</" ++ name ++ ">"

/-- Siblings at some depth. `glued` tells that a text comes directly before the first of them. -/
def printAll (style : Indentation) (depth : Nat) (glued : Bool) : List Xml → String
  | [] => ""
  | x :: xs => print style depth glued x ++ printAll style depth false xs

end

/-- A document of some nodes, with its declaration. -/
def document (style : Indentation) (nodes : List Xml) : String :=
  "<?xml version=\"1.0\"?>" ++ printAll style 0 false nodes
    ++ match style with
      | .none => ""
      | .tab | .twoSpaces => "\n"

end Xml

end FormDesign
