import FormDesign.Kind
import FormDesign.Platform
import FormDesign.Property
import FormDesign.Tree.Branch

/-!
# Nodes of a design

An element is what a node is made of: its kind, its properties and its event handlers. A node is an
element with a place in a tree. A design is written down as a branch of elements.
-/

namespace FormDesign

/-- An event that a node handles. -/
structure Event where
  /-- The name of the event in the toolkit. -/
  name : String
  /-- The name of a method, or the text of an inline function, which opens with a bracket. -/
  handler : String
  deriving DecidableEq

/-- Whether the handler is an inline function instead of a method, blanks before it aside. -/
def Event.isLambda (e : Event) : Bool :=
  Text.startsWhere (Text.trimStart e.handler) (· == '[')

/-- What a node is made of. -/
structure Element where
  kind : Kind
  /-- The properties, each name at most once, in the order they were first set. -/
  props : List (Property × String)
  /-- The events, each name at most once, in the order they were first set. -/
  events : List Event
  deriving DecidableEq

namespace Element

/-! ## Building -/

/-- An element without properties and events. -/
def ofKind (kind : Kind) : Element :=
  { kind, props := [], events := [] }

/-- The properties after `p` was set to `value`: in its old place, or at the end when new. -/
def putProp (p : Property) (value : String) : List (Property × String) → List (Property × String)
  | [] => [(p, value)]
  | (q, old) :: rest => if q = p then (p, value) :: rest else (q, old) :: putProp p value rest

/-- Sets a property. -/
def setProp (e : Element) (p : Property) (value : String) : Element :=
  { e with props := putProp p value e.props }

/-- The events after `e` was added: in the place of one of its name, or at the end when new. -/
def putEvent (e : Event) : List Event → List Event
  | [] => [e]
  | d :: rest => if d.name = e.name then e :: rest else d :: putEvent e rest

/-- Gives an event a handler. -/
def setEvent (e : Element) (name handler : String) : Element :=
  { e with events := putEvent { name, handler } e.events }

/-! ## Reading properties -/

/-- The text of a property, if it is there. -/
def prop? (e : Element) (p : Property) : Option String :=
  (e.props.find? fun (q, _) => q == p).map Prod.snd

def hasProp (e : Element) (p : Property) : Bool :=
  (e.prop? p).isSome

/-- Whether the property is there and not empty. -/
def hasValue (e : Element) (p : Property) : Bool :=
  (e.prop? p).any (· ≠ "")

/-- The text of a property, empty when absent. -/
def text (e : Element) (p : Property) : String :=
  (e.prop? p).getD ""

/-- The property read as a truth value. -/
def flag (e : Element) (p : Property) : Bool :=
  (e.prop? p).any truth

/-- The property read as a number, 0 when it is none. -/
def int (e : Element) (p : Property) : Int :=
  number (e.text p)

/-- The property read as a number, or else `default`. -/
def intOr (e : Element) (p : Property) (default : Int) : Int :=
  (number? (e.text p)).getD default

def varName (e : Element) : String :=
  e.text .varName

def className (e : Element) : String :=
  e.text .className

/-- The node's own selector, when it confines the node to some platforms. -/
def selector? (e : Element) : Option String :=
  (e.prop? .platforms).filter (· ≠ Platform.everywhere)

/-- The properties whose values name image files. -/
def imageProps (e : Element) : List (Property × String) :=
  e.props.filter fun (p, _) => p.valueType.isImageLike

/-! ## Reading events -/

def event? (e : Element) (name : String) : Option Event :=
  e.events.find? fun d => d.name == name

/-- The events with a handler. -/
def handled (e : Element) : List Event :=
  e.events.filter fun d => d.handler ≠ ""

/-- Whether any event has a handler. -/
def hasEvents (e : Element) : Bool :=
  e.events.any fun d => d.handler ≠ ""

end Element

/-- A design as it is written down. -/
abbrev Design := Branch Element

/-- A node of a tree. Nodes refer to each other by their positions in the tree. -/
structure Node extends Element where
  id : Nat
  parent : Option Nat
  children : List Nat
  deriving DecidableEq

end FormDesign
