import FormDesign.Resource.Shape
import FormDesign.Tree.Branch

/-!
# Building resource objects

The objects for a branch of a design. They mostly follow the design, with a few exceptions:

* a node in a sizer is wrapped in an item of the sizer,
* what is in a collapsible pane stands in an inner window of its object,
* the menu below a tool stands in an element of its own,
* a folder in a plain object leaves no trace of its own, and what is in it moves up,
* a page below another page of a tree book moves up to the book. It follows the page it was taken
  from and tells its depth.

A page that moves up is handed from object to object until it reaches the tree book, which puts it
right after the objects that were there when it came.
-/

namespace FormDesign

/-- What became of a node. -/
inductive Placement
  /-- The resource cannot describe the node, and nothing is left of it. -/
  | notSupported
  /-- The object was filled in. -/
  | updated
  /-- The object became an item with the object of the node in it. -/
  | sizerItemCreated
  /-- The object holds a remark in place of the node. -/
  | formNotSupported
  deriving DecidableEq

namespace Placement

def name : Placement → String
  | .notSupported => "NotSupported"
  | .updated => "Updated"
  | .sizerItemCreated => "SizerItemCreated"
  | .formNotSupported => "FormNotSupported"

/-- Whether the node itself was described. -/
def isSupported (p : Placement) : Bool :=
  p == .updated || p == .sizerItemCreated

end Placement

/-- An object that goes below its parent, or a page that moves up to its tree book. -/
inductive Sprout
  | here (x : Xml)
  | page (x : Xml)

namespace Sprout

def xml : Sprout → Xml
  | here x | page x => x

/-- The objects that stay. -/
def staying (sprouts : List Sprout) : List Xml :=
  sprouts.filterMap fun
    | here x => some x
    | page _ => none

/-- The pages that move up. -/
def pages (sprouts : List Sprout) : List Sprout :=
  sprouts.filter fun
    | here _ => false
    | page _ => true

end Sprout

/-- What the objects around a page tell it: the tree book they belong to, and the depth of the
nearest page of a tree book in it. -/
structure Trail where
  inTreeBook : Bool
  pageDepth : Option Nat
  deriving DecidableEq

namespace Trail

def none : Trail := { inTreeBook := false, pageDepth := .none }

/-- The trail inside of a node, whose own depth is given if it is a page. -/
def enter (t : Trail) (e : Element) (book : Option Kind) (depth : Nat) : Trail :=
  if e.kind = .treebook then { inTreeBook := true, pageDepth := .none }
  else if e.kind = .bookPage && book == some .treebook then { t with pageDepth := some depth }
  else t

/-- The depth of a page that moves up. -/
def nextDepth (t : Trail) : Nat :=
  match t.pageDepth with
  | some d => d + 1
  | .none => 1

end Trail

/-- The object of a node, as far as it was built. -/
structure Growth where
  placement : Placement
  object : Part
  /-- The pages that move up from below the object. -/
  pages : List Sprout
  warnings : List String

/-- What siblings grow into. -/
structure Grove where
  sprouts : List Sprout
  warnings : List String

namespace Grove

def empty : Grove := { sprouts := [], warnings := [] }

def append (g h : Grove) : Grove :=
  { sprouts := g.sprouts ++ h.sprouts, warnings := g.warnings ++ h.warnings }

end Grove

namespace Growth

/-- The growth as a child of another object. Nothing is left of a node that is not supported. -/
def asChild (g : Growth) : Grove :=
  if g.placement = .notSupported then { sprouts := [], warnings := g.warnings }
  else { sprouts := .here g.object.object :: g.pages, warnings := g.warnings }

/-- The growth of a page as a page that moves up with its depth. -/
def asPage (g : Growth) (depth : Nat) : Grove :=
  let object := { g.object with contents := .leaf "depth" (toString depth) :: g.object.contents }
  { sprouts := .page object.object :: g.pages, warnings := g.warnings }

end Growth

namespace Element

/-- The window inside of a collapsible pane. -/
def paneWindow (children : List Xml) : Xml :=
  (Part.ofClass "panewindow" children).object

/-- The menu below a tool. -/
def dropdownMenu (children : List Xml) : Xml :=
  .element "dropdown" [] none [(Part.ofClass "wxMenu" children).object]

/-- The objects of children as they are put into the object of the node. `leafless` tells that the
node has no children. -/
def container (e : Element) (leafless : Bool) (children : List Xml) : List Xml :=
  match e.kind with
  | .collapsiblePane => [paneWindow children]
  | .toolDropdown => if leafless then [] else [dropdownMenu children]
  | _ => children

/-- What is told of a node that the resource cannot describe. -/
def resourceWarnings (e : Element) : List String :=
  if e.kind = .popupTransientWindow then [e.className ++ ": " ++ e.unsupportedText] else []

/-- Whether what is in a folder moves up into the object of the node. -/
def flattensFolders (s : Shape) (e : Element) : Bool :=
  match s with
  | .wrapped .. => false
  | _ => e.kind != .toolDropdown

/-- The objects that stay below a node, and the pages that move on. They stop at a tree book. -/
def settle (e : Element) (sprouts : List Sprout) : List Xml × List Sprout :=
  if e.kind = .treebook then (sprouts.map Sprout.xml, [])
  else (Sprout.staying sprouts, Sprout.pages sprouts)

end Element

/-- The object of a node from its shape and what its children grew into. -/
def Growth.assemble (comments : Bool) (e : Element) (s : Shape) (leafless : Bool) (g : Grove) :
    Growth :=
  let warnings := e.resourceWarnings ++ g.warnings
  let (children, pages) := e.settle g.sprouts
  let contents := e.container leafless children
  match s with
  | .absent => { placement := .notSupported, object := ⟨[], []⟩, pages := [], warnings }
  | .remark object =>
    { placement := if comments then .formNotSupported else .notSupported, object, pages := [],
      warnings }
  | .plain object => { placement := .updated, object := object.extend contents, pages, warnings }
  | .wrapped outer inner =>
    { placement := .sizerItemCreated, object := outer.extend [(inner.extend contents).object],
      pages, warnings }

/-- Whether the children of a node are put into its object at all. -/
def Shape.holdsChildren : Shape → Bool
  | .absent | .remark _ => false
  | .plain _ | .wrapped .. => true

/-- Nodes of the project structure, which have no object of their own. -/
def Kind.isGrouping (k : Kind) : Bool :=
  k == .project || k == .folder

/-- The shape of a node. A project or folder is a plain object without class. -/
def Element.resourceShape (e : Element) (comments : Bool) (above : List Element) : Shape :=
  if e.kind.isGrouping then .plain ⟨[], []⟩ else e.shape comments above

/-- The object of a node around the objects of its children. `grove` tells what the children grow
into, from whether folders among them leave no trace and from the trail they stand on. `above` holds
the elements above the node, nearest first, and `depth` is how deep it is in its tree book if it is
a page. -/
def Growth.around (comments : Bool) (above : List Element) (trail : Trail) (depth : Nat)
    (e : Element) (leafless : Bool) (grove : Bool → Trail → Grove) : Growth :=
  let shape := e.resourceShape comments above
  let book := (above.find? fun a => a.kind.isBook).map Element.kind
  let children :=
    if shape.holdsChildren then grove (Element.flattensFolders shape e) (trail.enter e book depth)
    else .empty
  .assemble comments e shape leafless children

mutual

/-- What a child of `parent` grows into. -/
def growChild (comments : Bool) (parent : Element) (flatten : Bool) (above : List Element)
    (trail : Trail) : Design → Grove
  | .mk e cs =>
    let grown (trail : Trail) (depth : Nat) : Growth :=
      .around comments above trail depth e cs.isEmpty fun flatten inner =>
        growAll comments e flatten (e :: above) inner cs
    if flatten && e.kind = .folder then growAll comments e true (e :: above) trail cs
    else if parent.kind = .bookPage && e.kind = .bookPage && trail.inTreeBook then
      (grown { trail with pageDepth := none } trail.nextDepth).asPage trail.nextDepth
    else (grown trail 0).asChild

/-- What the children of `parent` grow into. -/
def growAll (comments : Bool) (parent : Element) (flatten : Bool) (above : List Element)
    (trail : Trail) : List Design → Grove
  | [] => .empty
  | b :: bs =>
    (growChild comments parent flatten above trail b).append
      (growAll comments parent flatten above trail bs)

end

/-- The object of a design and what is below it, with nothing of a tree book around it. -/
def grow (comments : Bool) (above : List Element) (b : Design) : Growth :=
  .around comments above .none 0 b.label b.children.isEmpty fun flatten inner =>
    growAll comments b.label flatten (b.label :: above) inner b.children

end FormDesign
