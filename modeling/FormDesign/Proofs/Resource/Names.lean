import FormDesign.Resource.Document
import Mathlib.Data.List.Count

/-!
# Names in the resource

An object carries the name of its node. Besides the objects of nodes only the buttons of a dialog
have names, and they have the names of the toolkit.

* `Xml.names`: the names in a resource, in the order of the elements
* `Part.names`, `Shape.names`: the names in what is written for one node
* `Element.objectNames`: the names that a node brings along
* `Element.names_resourceShape`: the shape of a node has these names
-/

namespace FormDesign

namespace Xml

/-- The value of an attribute, if the node is an element that carries it. -/
def attribute? (key : String) : Xml → Option String
  | .element _ attributes .. => attributes.lookup key
  | .comment _ => none

mutual

/-- The elements of a node in pre-order, the node itself first. Comments are left out. -/
def elements : Xml → List Xml
  | .element name attributes text children =>
    .element name attributes text children :: elementsAll children
  | .comment _ => []

/-- The elements of several nodes. -/
def elementsAll : List Xml → List Xml
  | [] => []
  | x :: xs => elements x ++ elementsAll xs

end

theorem elementsAll_append (xs ys : List Xml) :
    elementsAll (xs ++ ys) = elementsAll xs ++ elementsAll ys := by
  induction xs with
  | nil => rfl
  | cons x xs ih => rw [List.cons_append, elementsAll, elementsAll, ih, List.append_assoc]

theorem elementsAll_eq (xs : List Xml) : elementsAll xs = xs.flatMap elements := by
  induction xs with
  | nil => rfl
  | cons x xs ih => rw [elementsAll, ih, List.flatMap_cons]

/-- The names that elements carry. -/
def names (xs : List Xml) : List String :=
  (elementsAll xs).filterMap (attribute? "name")

@[simp] theorem names_nil : names [] = [] :=
  rfl

@[simp] theorem names_append (xs ys : List Xml) : names (xs ++ ys) = names xs ++ names ys := by
  rw [names, elementsAll_append, List.filterMap_append]
  rfl

theorem names_perm {xs ys : List Xml} (h : xs.Perm ys) : (names xs).Perm (names ys) := by
  rw [names, names, elementsAll_eq, elementsAll_eq]
  exact (h.flatMap_right _).filterMap _

theorem names_element (name : String) (attributes : List (String × String)) (text : Option String)
    (children xs : List Xml) :
    names (.element name attributes text children :: xs)
      = (attributes.lookup "name").toList ++ names children ++ names xs := by
  simp only [names, elementsAll, elements, List.cons_append, List.filterMap_cons,
    List.filterMap_append, attribute?]
  cases attributes.lookup "name" <;> rfl

@[simp] theorem names_leaf (name text : String) (xs : List Xml) :
    names (leaf name text :: xs) = names xs :=
  names_element name [] (some text) [] xs

@[simp] theorem names_comment (text : String) (xs : List Xml) :
    names (.comment text :: xs) = names xs :=
  rfl

@[simp] theorem names_ite (c : Prop) [Decidable c] (xs ys : List Xml) :
    names (if c then xs else ys) = if c then names xs else names ys :=
  apply_ite names c xs ys

theorem names_cons (x : Xml) (xs : List Xml) : names (x :: xs) = names [x] ++ names xs :=
  names_append [x] xs

end Xml

open Xml (names)

/-! ## Parts -/

namespace Part

/-- The names in an object. -/
def names (p : Part) : List String :=
  (p.attributes.lookup "name").toList ++ Xml.names p.contents

@[simp] theorem names_object (p : Part) (xs : List Xml) :
    Xml.names (p.object :: xs) = p.names ++ Xml.names xs :=
  Xml.names_element ..

@[simp] theorem names_extend (p : Part) (more : List Xml) :
    (p.extend more).names = p.names ++ Xml.names more := by
  simp [names, extend]

@[simp] theorem names_ofClass (className : String) (contents : List Xml) :
    (ofClass className contents).names = Xml.names contents :=
  rfl

end Part

/-- The names in what a node becomes when comments are left out. -/
def Shape.names : Shape → List String
  | .absent | .remark _ => []
  | .plain object => object.names
  | .wrapped outer inner => outer.names ++ inner.names

@[simp] theorem Shape.names_plain (object : Part) : (Shape.plain object).names = object.names :=
  rfl

@[simp] theorem Shape.names_wrapped (outer inner : Part) :
    (Shape.wrapped outer inner).names = outer.names ++ inner.names :=
  rfl

/-! ## What is written for properties -/

namespace Element

variable (e : Element)

@[simp] theorem names_textTag (p : Property) (tag : String) : names (e.textTag p tag) = [] := by
  simp [textTag]

@[simp] theorem names_flagTag (p : Property) (tag : String) : names (e.flagTag p tag) = [] := by
  simp [flagTag]

@[simp] theorem names_pairTag (p : Property) (tag : String) : names (e.pairTag p tag) = [] := by
  unfold pairTag
  split <;> simp

@[simp] theorem names_placementTags (implied : String) : names (e.placementTags implied) = [] := by
  simp [placementTags]

@[simp] theorem names_windowTags (comments : Bool) : names (e.windowTags comments) = [] := by
  simp [windowTags]

@[simp] theorem names_orientationTag (xs : List Xml) : names (e.orientationTag :: xs) = names xs :=
  Xml.names_leaf ..

/-- A picture has attributes for stock art and for its size only. -/
@[simp] theorem names_imageTag (tag : String) (d : ImageDescription) :
    names [imageTag tag d] = [] := by
  unfold imageTag
  cases d.kind with
  | art =>
    obtain ⟨id, client⟩ := d.artParts
    cases client <;> simp [Xml.names_element, List.lookup_cons]
  | svg => cases d.size <;> simp [Xml.names_element, List.lookup_cons]
  | embed | xpm | header => simp

@[simp] theorem names_bitmapTag (comments : Bool) (p : Property) (tag : String) :
    names (e.bitmapTag comments p tag) = [] := by
  unfold bitmapTag
  split
  · rfl
  · split <;> simp

@[simp] theorem names_sizerItemTags : names e.sizerItemTags = [] := by
  simp [sizerItemTags]

@[simp] theorem names_gridTags : names e.gridTags = [] := by
  simp [gridTags]

@[simp] theorem names_items (items : List String) : names (items.map (Xml.leaf "item")) = [] := by
  induction items with
  | nil => rfl
  | cons item items ih => simp [ih]

@[simp] theorem names_choiceTags : names e.choiceTags = [] := by
  simp [choiceTags, Xml.names_element]

@[simp] theorem names_kindTags (comments : Bool) : names (e.kindTags comments) = [] := by
  have animation (d : Option ImageDescription) :
      names (d.map fun d => Xml.leaf "animation" d.path).toList = [] := by
    cases d <;> simp
  unfold kindTags
  split
  all_goals simp [animation]

/-! ## Parts of a kind -/

/-- The name of the object of a node. An empty name is left out. -/
def ownName : List String :=
  if e.resourceName = "" then [] else [e.resourceName]

@[simp] theorem names_part (className : String) (contents : List Xml) :
    (e.part className contents).names = e.ownName ++ names contents := by
  unfold part objectAttributes Part.names ownName
  split <;> simp [List.lookup_cons]

@[simp] theorem names_sizerItem : e.sizerItem.names = [] := by
  simp [sizerItem]

@[simp] theorem names_windowPart (comments : Bool) : (e.windowPart comments).names = e.ownName := by
  simp [windowPart]

@[simp] theorem names_panelPart (comments : Bool) : (e.panelPart comments).names = e.ownName := by
  simp [panelPart]

@[simp] theorem names_pagePart (comments : Bool) (book : Option Kind) :
    (e.pagePart comments book).names = [] := by
  simp [pagePart]

@[simp] theorem names_boxSizerPart : e.boxSizerPart.names = e.ownName := by
  unfold boxSizerPart
  dsimp only
  split <;> simp [Xml.names_element]

/-- The buttons are objects with the names of the toolkit. -/
@[simp] theorem names_buttonSizerPart :
    e.buttonSizerPart.names = (if e.hasValue .varName then [e.varName] else []) ++ e.buttons := by
  let button (id : String) : Xml :=
    (Part.ofClass "button"
      [.element "object" [("class", "wxButton"), ("name", id)] none []]).object
  have buttons (ids : List String) : names (ids.map button) = ids := by
    induction ids with
    | nil => rfl
    | cons id ids ih =>
      rw [List.map_cons, Part.names_object, ih]
      simp [Xml.names_element, List.lookup_cons]
  have contents : names e.buttonSizerPart.contents = e.buttons := buttons e.buttons
  rw [Part.names, contents, buttonSizerPart]
  split <;> simp [List.lookup_cons]

@[simp] theorem names_spacerPart : e.spacerPart.names = [] := by
  simp [spacerPart]

@[simp] theorem names_menuItemPart (comments : Bool) :
    (e.menuItemPart comments).names = e.ownName := by
  simp [menuItemPart]

@[simp] theorem names_toolPart (comments : Bool) : (e.toolPart comments).names = e.ownName := by
  simp [toolPart, Xml.names_element]

@[simp] theorem names_widgetPart (comments : Bool) : (e.widgetPart comments).names = e.ownName := by
  simp [widgetPart]

@[simp] theorem names_placed (inSizer : Bool) (object : Part) :
    (e.placed inSizer object).names = object.names := by
  cases inSizer with
  | true => exact congrArg (· ++ object.names) e.names_sizerItem
  | false => rfl

/-! ## Shapes -/

/-- The names that a node brings along: most have their own, some have none, and a sizer for the
buttons of a dialog has theirs as well. -/
def objectNames : List String :=
  match e.kind with
  | .project | .folder | .spacer | .separator | .toolSeparator => []
  | .stdDialogButtonSizer => (if e.hasValue .varName then [e.varName] else []) ++ e.buttons
  | _ => e.ownName

end Element

/-- Kinds that the resource has an object for. -/
def Kind.isDescribed : Kind → Bool
  | .images | .timer | .contextMenuEvent | .popupTransientWindow => false
  | _ => true

namespace Element

variable (e : Element)

/-- **The shape of a node has the names of the node.** -/
theorem names_resourceShape (comments : Bool) (above : List Element)
    (described : e.kind.isDescribed = true) :
    (e.resourceShape comments above).names = e.objectNames := by
  unfold resourceShape shape objectNames
  cases hk : e.kind
  case images | timer | contextMenuEvent | popupTransientWindow =>
    rw [hk] at described
    cases described
  case project | folder => rfl
  all_goals simp [Kind.isGrouping]

@[simp] theorem holdsChildren_placed (inSizer : Bool) (object : Part) :
    (e.placed inSizer object).holdsChildren = true := by
  cases inSizer <;> rfl

/-- An object holds children if the resource describes its node. -/
theorem holdsChildren_resourceShape (comments : Bool) (above : List Element) :
    (e.resourceShape comments above).holdsChildren = e.kind.isDescribed := by
  unfold resourceShape shape
  cases hk : e.kind
  case timer | contextMenuEvent => cases comments <;> rfl
  all_goals first | rfl | exact e.holdsChildren_placed ..

end Element

end FormDesign
