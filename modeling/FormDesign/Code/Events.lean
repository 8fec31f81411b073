import FormDesign.Code.Form
import FormDesign.Dialect.Event

/-!
# Events of a form

Every event with a handler is bound in one place: in the constructor, under the platforms of its
node, or in the handler of the context menu that the node belongs to. A node that opens a context
menu binds nothing itself, unless it stands directly in another such node.
-/

namespace FormDesign

/-- An event of a node of the form. -/
structure EventUse where
  spot : Spot
  event : Event

namespace EventUse

def item (u : EventUse) : Item := u.spot.item

/-- What events are ordered by: event, handler, identifier, name of the variable. -/
def key (u : EventUse) : String × String × String × String :=
  (u.event.name, u.event.handler, u.item.element.text .id, u.item.element.varName)

/-- Whether `u` comes before `v` or has the same key. -/
def le (u v : EventUse) : Bool :=
  let (a, b, c, d) := u.key
  let (a', b', c', d') := v.key
  if a ≠ a' then a < a' else if b ≠ b' then b < b' else if c ≠ c' then c < c' else d ≤ d'

/-- Events in the order they are bound in. Those with equal keys keep their order. -/
def sort (uses : List EventUse) : List EventUse :=
  uses.mergeSort le

end EventUse

/-- The place where an event is bound. -/
inductive BindPlace
  /-- The constructor, under the platforms of a selector if there is one. -/
  | constructor (destination : Option String)
  /-- The handler of a context menu. -/
  | contextMenu
  deriving DecidableEq

/-- The events of a form by the places they are bound in. -/
structure EventTables where
  bound : Grouped EventUse
  inMenus : List EventUse

/-! ## Collecting -/

/-- The handled events of one spot with the place they are bound in. -/
def spotEvents (inMenu : Bool) (s : Spot) : List (BindPlace × EventUse) :=
  s.item.element.handled.map fun event =>
    (if inMenu then .contextMenu else .constructor s.destination, { spot := s, event })

mutual

/-- The events of a node and of what is below it. The entries of a node that opens a context menu
are bound in the menu's handler; the node itself is passed over. -/
def nodeEvents (inMenu : Bool) (above : List Item) : Branch Item → List (BindPlace × EventUse)
  | .mk i cs =>
    if i.isMenuBuilder then entryEventsAll (i :: above) cs
    else spotEvents inMenu { item := i, above } ++ nodeEventsAll inMenu (i :: above) cs

def nodeEventsAll (inMenu : Bool) (above : List Item) :
    List (Branch Item) → List (BindPlace × EventUse)
  | [] => []
  | b :: bs => nodeEvents inMenu above b ++ nodeEventsAll inMenu above bs

/-- The events of an entry of a context menu, whatever its kind, and of what is below it. -/
def entryEvents (above : List Item) : Branch Item → List (BindPlace × EventUse)
  | .mk i cs => spotEvents true { item := i, above } ++ nodeEventsAll true (i :: above) cs

def entryEventsAll (above : List Item) : List (Branch Item) → List (BindPlace × EventUse)
  | [] => []
  | b :: bs => entryEvents above b ++ entryEventsAll above bs

end

/-- An event put into the table for its place. -/
def EventTables.add (t : EventTables) : BindPlace × EventUse → EventTables
  | (.constructor destination, use) => { t with bound := t.bound.add destination use }
  | (.contextMenu, use) => { t with inMenus := t.inMenus ++ [use] }

namespace EventTables

def empty : EventTables := { bound := .empty, inMenus := [] }

/-- The tables in the order they are bound in. -/
def sort (t : EventTables) : EventTables :=
  { bound := t.bound.mapParts EventUse.sort, inMenus := EventUse.sort t.inMenus }

/-- Every event, those of the constructor first. -/
def toList (t : EventTables) : List EventUse :=
  t.bound.toList ++ t.inMenus

end EventTables

/-- The events of a form in the order of the tree. -/
def Form.events (f : Form) : EventTables :=
  (nodeEvents false f.above f.branch).foldl EventTables.add .empty

/-! ## Bindings -/

/-- Where the events of an item come from when they are bound. -/
def Item.bindSource (i : Item) : BindSource :=
  if i.kind.isForm then .form
  else
    match i.kind.category with
    | .menuItem | .tool => .item (.id (i.element.text .id))
    | _ => .window i.var

/-- The binding of an event. Handlers are methods of the class that the form's property names. -/
def Form.binding (f : Form) (u : EventUse) : Binding :=
  { event := u.event.name, handler := u.event.handler, className := f.element.className,
    source := u.item.bindSource }

/-- The warning for an inline handler that the language cannot bind. -/
def EventUse.skipped? (d : Dialect) (u : EventUse) : Option String :=
  if isInline u.event.handler && d != .cpp && u.event.isLambda then
    some <| u.item.element.describe ++ ": the lambda handler for " ++ u.event.name
      ++ " is C++ only and was skipped for " ++ d.name
  else none

/-- The name of the method that shows the context menu of a node. -/
def menuHandler (builder : Spot) : String :=
  match builder.above.head? with
  | some owner => if owner.kind.isForm then "OnContextMenu" else "OnContextMenu_" ++ owner.name
  | none => "OnContextMenu"

/-- The binding that opens a context menu. -/
def Form.menuBinding? (f : Form) (builder : Spot) : Option Binding :=
  builder.above.head?.map fun owner =>
    { event := "wxEVT_CONTEXT_MENU", handler := menuHandler builder, className := f.className,
      source := owner.bindSource }

/-- The events and their named handlers, each handler once. -/
def namedHandlers (uses : List EventUse) : List (String × String) :=
  go [] uses
where
  /-- The handlers that are not in `seen`. -/
  go (seen : List String) : List EventUse → List (String × String)
    | [] => []
    | u :: rest =>
      let handler := u.event.handler
      if isInline handler || seen.contains handler then go seen rest
      else (u.event.name, handler) :: go (handler :: seen) rest

end FormDesign
