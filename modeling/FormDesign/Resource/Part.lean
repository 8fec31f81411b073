import FormDesign.Identifier
import FormDesign.Image.Description
import FormDesign.Value
import FormDesign.Xml.Basic

/-!
# Parts of resource objects

What is written into the object of a node: its class and name, and an element for each property
that the resource knows.
-/

namespace FormDesign

/-- What is written into an element: attributes and contents. -/
structure Part where
  attributes : List (String × String)
  contents : List Xml

namespace Part

/-- A part with more contents at its end. -/
def extend (p : Part) (more : List Xml) : Part :=
  { p with contents := p.contents ++ more }

/-- An object element. -/
def object (p : Part) : Xml :=
  .element "object" p.attributes none p.contents

/-- A part of a class without a name. -/
def ofClass (className : String) (contents : List Xml) : Part :=
  { attributes := [("class", className)], contents }

end Part

namespace Element

/-! ## Class and name -/

/-- The name of an object: the identifier unless it stands for any, or else the variable, or else
the class. -/
def resourceName (e : Element) : String :=
  let other := if e.hasProp .varName then e.varName else e.className
  match Identifier.parse? (e.text .id) with
  | some id => if id.name ≠ "wxID_ANY" then id.name else other
  | none => other

/-- The class and the name of an object. An empty name is left out. -/
def objectAttributes (e : Element) (className : String) : List (String × String) :=
  ("class", className) :: if e.resourceName = "" then [] else [("name", e.resourceName)]

/-- A part with the class and the name of the node. -/
def part (e : Element) (className : String) (contents : List Xml) : Part :=
  { attributes := e.objectAttributes className, contents }

/-! ## Properties -/

/-- The text of a property, if there is one. -/
def textTag (e : Element) (p : Property) (tag : String) : List Xml :=
  if e.hasValue p then [.leaf tag (e.text p)] else []

/-- A one for a property that is true. -/
def flagTag (e : Element) (p : Property) (tag : String) : List Xml :=
  if e.flag p then [.leaf tag "1"] else []

/-- A pair of numbers that is not the default. -/
def pairTag (e : Element) (p : Property) (tag : String) : List Xml :=
  match givenPair? (e.text p) with
  | some (a, b) => [.leaf tag (toString a ++ "," ++ toString b)]
  | none => []

/-- Style, position and size, where the kind may imply a style. -/
def placementTags (e : Element) (implied : String) : List Xml :=
  let style := e.style implied
  (if style = "" then [] else [.leaf "style" style]) ++ e.pairTag .pos "pos"
    ++ e.pairTag .size "size"

/-- What any window can be told. Validators are only remarked on. -/
def windowTags (e : Element) (comments : Bool) : List Xml :=
  e.textTag .tooltip "tooltip" ++ e.flagTag .hidden "hidden"
    ++ (if e.flag .disabled then [.leaf "enabled" "0"] else [])
    ++ e.flagTag .focus "focused"
    ++ (if comments && e.hasValue .validatorVariable then
        [.comment " Validators cannot be set in the XRC file. "] else [])

/-- The direction of a sizer. -/
def orientationTag (e : Element) : Xml :=
  let default := if e.kind = .verticalBoxSizer then "wxVERTICAL" else "wxHORIZONTAL"
  .leaf "orient" (if e.text .orientation = "" then default else e.text .orientation)

/-- A picture: stock art by its name and client, anything else by its path. -/
def imageTag (tag : String) (d : ImageDescription) : Xml :=
  match d.kind with
  | .art =>
    let (id, client) := d.artParts
    let clients := match client with
      | some client => [("stock_client", client)]
      | none => []
    .element tag (("stock_id", id) :: clients) none []
  | .svg =>
    let sizes := match d.size with
      | some (w, h) => [("default_size", toString w ++ "," ++ toString h)]
      | none => []
    .element tag sizes (some d.path) []
  | .embed | .xpm | .header => .leaf tag d.path

/-- The picture of a property, or a remark that it cannot be read. -/
def bitmapTag (e : Element) (comments : Bool) (p : Property) (tag : String) : List Xml :=
  if !e.hasValue p then []
  else
    match ImageDescription.parse? (e.text p) with
    | some d => [imageTag tag d]
    | none => if comments then [.comment (" Invalid " ++ tag ++ " description. ")] else []

/-- Flags, border and proportion of an item in a sizer. -/
def sizerItemTags (e : Element) : List Xml :=
  let flags := joinFlags [e.text .borders, e.text .flags, e.text .alignment]
  (if flags = "" then [] else [.leaf "flag" flags]) ++ e.textTag .borderSize "border"
    ++ (if e.int .proportion ≠ 0 then [.leaf "option" (toString (e.int .proportion))] else [])

end Element

end FormDesign
