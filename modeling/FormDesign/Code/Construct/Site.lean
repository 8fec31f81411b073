import FormDesign.Code.Step
import FormDesign.Value

/-!
# The place of construction

What the plan for a node depends on besides the node itself: the language, the kind of the form, the
images that are there to be referred to, and the items around the node. From these follow the
variables of nodes and the objects they are created in and attached to.
-/

namespace FormDesign

/-- The identifier of a node as an argument. -/
def Element.idArg (e : Element) : Expr :=
  .id (e.text .id)

/-- What is the same for every node of a plan. -/
structure Site where
  dialect : Dialect
  formKind : Kind
  /-- The files of the images that the form embeds. -/
  embedded : List String
  /-- Whether the plan is for the handler of a context menu, where every variable is local. -/
  inMenu : Bool

/-- A node with what stands around it. -/
structure Place where
  item : Item
  children : List Item
  /-- The items above, nearest first. -/
  above : List Item
  /-- The siblings in front, nearest first. -/
  before : List Item

namespace Place

def kind (p : Place) : Kind := p.item.kind

def element (p : Place) : Element := p.item.element

def parent? (p : Place) : Option Item := p.above.head?

/-- Whether the node stands directly in a form. -/
def isChildOfForm (p : Place) : Bool :=
  p.parent?.any fun i => i.kind.isForm

end Place

/-- The variable of the menu that the handler of a context menu shows. -/
def contextMenuVar : Var := .temporary "menu"

namespace Site

/-! ## Variables -/

/-- The variable of a node. -/
def var (s : Site) (i : Item) : Var :=
  if s.inMenu then .temporary i.name else i.var

/-- The variable of the menu below a tool. -/
def dropdownVar (i : Item) : Var :=
  .temporary (i.name ++ "_menu")

/-! ## Surroundings -/

/-- The window that a book page is created in: the nearest book, unless a form comes first. -/
def bookWindow (s : Site) : List Item → Expr
  | [] => .self
  | i :: above =>
    if i.kind.isForm then .self
    else if i.kind.isBook then .var (s.var i)
    else s.bookWindow above

/-- The window that a control is created in. -/
def controlWindow (s : Site) : List Item → Expr
  | [] => .self
  | i :: above =>
    if i.kind.isForm then .self
    else
      match i.kind with
      | .staticBoxSizer | .staticCheckboxBoxSizer | .staticRadioBtnBoxSizer =>
        .call (.var (s.var i)) "GetStaticBox" []
      | .collapsiblePane => .call (.var (s.var i)) "GetPane" []
      | kind => if kind.isContainer then .var (s.var i) else s.controlWindow above

/-- The window that the node is created in. -/
def window (s : Site) (p : Place) : Expr :=
  if p.kind = .bookPage then s.bookWindow p.above else s.controlWindow p.above

/-- The menu or menu bar that a menu node is appended to. -/
def menuParent? (s : Site) (p : Place) : Option Target :=
  p.parent? >>= fun i =>
    match i.kind with
    | .menuBarForm => some .form
    | .menuBar | .menu | .subMenu => some (.var (s.var i))
    | .contextMenuEvent => some (.var contextMenuVar)
    | .toolDropdown => some (.var (dropdownVar i))
    | _ => none

/-- The bar that a tool is added to. -/
def toolParent? (s : Site) (p : Place) : Option Target :=
  p.parent? >>= fun i =>
    match i.kind with
    | .toolBarForm => some .form
    | .toolBar | .auiToolBar | .ribbonButtonBar => some (.var (s.var i))
    | _ => none

/-- The sizer that the node stands in. -/
def sizerParent? (s : Site) (p : Place) : Option Var :=
  (p.parent?.filter fun i => i.kind.isSizer).map s.var

/-! ## Pictures -/

/-- The image of a property, if it can be referred to. The bytes of an embedded one must be
there. -/
def image? (s : Site) (e : Element) (p : Property) : Option ImageDescription :=
  (ImageDescription.parse? (e.text p)).filter fun d =>
    !d.kind.isEmbedded || s.embedded.contains d.path

def bitmap? (s : Site) (e : Element) (p : Property) : Option Expr :=
  (s.image? e p).map .bitmap

def animation? (s : Site) (e : Element) : Option Expr :=
  (s.image? e .animation).map .animation

end Site

end FormDesign
