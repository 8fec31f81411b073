/-!
# XML

Elements and comments. An element has attributes, possibly a text, and children; the text comes
before the children.
-/

namespace FormDesign

inductive Xml where
  | element (name : String) (attributes : List (String × String)) (text : Option String)
      (children : List Xml)
  | comment (text : String)

namespace Xml

/-- An element that holds a text and nothing else. -/
def leaf (name text : String) : Xml :=
  .element name [] (some text) []

/-- The name of an element. -/
def name? : Xml → Option String
  | .element name .. => some name
  | .comment _ => none

end Xml

end FormDesign
