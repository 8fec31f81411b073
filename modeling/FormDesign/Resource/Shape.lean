import FormDesign.Code.Construct.Create
import FormDesign.Resource.Widget

/-!
# Shapes of resource objects

What a node becomes in the resource: nothing, an object, or an object wrapped in an item of the
sizer around it. The children of a wrapped node go into the inner object.
-/

namespace FormDesign

/-- What a node becomes, before its children are put into it. -/
inductive Shape
  /-- The resource cannot describe the node. -/
  | absent
  /-- The object of the node. -/
  | plain (object : Part)
  /-- An object around the object of the node. -/
  | wrapped (outer inner : Part)
  /-- An object that holds a remark in place of the node. -/
  | remark (object : Part)

namespace Element

/-- The item of a sizer, without the object in it. -/
def sizerItem (e : Element) : Part :=
  .ofClass "sizeritem" e.sizerItemTags

/-- An object, in an item of the sizer if the node stands in one. -/
def placed (e : Element) (inSizer : Bool) (object : Part) : Shape :=
  if inSizer then .wrapped e.sizerItem object else .plain object

/-- A remark in place of the node, in an item of the sizer if the node stands in one. -/
def placedRemark (e : Element) (inSizer : Bool) (object : Part) : Shape :=
  .remark (if inSizer then e.sizerItem.extend [object.object] else object)

/-- That the resource cannot describe nodes of this kind. -/
def unsupportedText (e : Element) : String :=
  e.kind.name ++ " is not supported by XRC"

/-! ## By kind -/

/-- A dialog or a frame. -/
def windowPart (e : Element) (comments : Bool) : Part :=
  let center := e.text .center
  let remark (b : Bool) (text : String) : List Xml := if comments && b then [.comment text] else []
  e.part e.kind.className <|
    e.textTag .title "title"
      ++ remark (Text.contains (e.text .style) "wxWANTS_CHARS")
        " The wxWANTS_CHARS style will be ignored when the XRC is loaded. "
      ++ e.placementTags ""
      ++ (if center = "" then []
        else if center = "no" then [.leaf "centered" "0"]
        else
          remark (center = "wxVERTICAL" || center = "wxHORIZONTAL")
              (" " ++ center ++ " cannot be set in the XRC file. ")
            ++ [.leaf "centered" "1"])
      ++ e.bitmapTag comments .icon "icon"
      ++ e.windowTags comments

/-- A sizer with a box around it, whose label may be a control. -/
def boxSizerPart (e : Element) : Part :=
  let label := e.textTag .label "label"
  let control (className checkedTag : String) : Xml :=
    .element "windowlabel" [] none
      [(Part.ofClass className (label ++ e.flagTag .checked checkedTag)).object]
  e.part "wxStaticBoxSizer" <|
    [e.orientationTag]
      ++ (match e.kind with
        | .staticCheckboxBoxSizer => [control "wxCheckBox" "checked"]
        | .staticRadioBtnBoxSizer => [control "wxRadioButton" "value"]
        | _ => label)
      ++ e.pairTag .minSize "minsize"

/-- A sizer with the buttons of a dialog. -/
def buttonSizerPart (e : Element) : Part :=
  let button (id : String) : Xml :=
    (Part.ofClass "button"
      [.element "object" [("class", "wxButton"), ("name", id)] none []]).object
  { attributes :=
      ("class", "wxStdDialogButtonSizer")
        :: if e.hasValue .varName then [("name", e.varName)] else []
    contents := e.buttons.map button }

/-- Room in a sizer, which is an item of the sizer by itself. -/
def spacerPart (e : Element) : Part :=
  .ofClass "spacer" <|
    .leaf "size" (toString (e.int .width) ++ "," ++ toString (e.int .height)) :: e.sizerItemTags

def menuItemPart (e : Element) (comments : Bool) : Part :=
  let kind := e.text .kind
  e.part "wxMenuItem" <|
    e.textTag .label "label" ++ e.textTag .shortcut "accel" ++ e.textTag .helpString "help"
      ++ (if kind = "wxITEM_CHECK" then [.leaf "checkable" "1"]
        else if kind = "wxITEM_RADIO" then [.leaf "radio" "1"] else [])
      ++ e.flagTag .checked "checked"
      ++ (if e.flag .disabled then [.leaf "enabled" "0"] else [])
      ++ e.bitmapTag comments .bitmap "bitmap"

/-- A tool without the menu that may be below it. -/
def toolPart (e : Element) (comments : Bool) : Part :=
  let kind := e.text .kind
  e.part "tool" <|
    (if kind = "wxITEM_RADIO" then [.leaf "radio" "1"]
      else if kind = "wxITEM_CHECK" then [.leaf "toggle" "1"]
      else if kind = "wxITEM_DROPDOWN" then [.leaf "dropdown" "1"] else [])
      ++ e.textTag .label "label" ++ e.textTag .tooltip "tooltip"
      ++ e.textTag .helpString "longhelp" ++ e.flagTag .disabled "disabled"
      ++ (if e.hasValue .bitmap then e.bitmapTag comments .bitmap "bitmap"
        else
          [.element "bitmap"
            [("stock_id", "wxART_QUESTION"), ("stock_client", "wxART_TOOLBAR")] none []])

/-- The class of a page, by the kind of its book. -/
def pageClass : Option Kind → String
  | some .treebook => "treebookpage"
  | some .choicebook => "choicebookpage"
  | some .listbook => "listbookpage"
  | some .simplebook => "simplebookpage"
  | _ => "notebookpage"

/-- A page of a book: what the book shows of it, without the panel that its controls stand on. -/
def pagePart (e : Element) (comments : Bool) (book : Option Kind) : Part :=
  .ofClass (pageClass book) <|
    e.textTag .label "label" ++ e.flagTag .select "selected"
      ++ e.bitmapTag comments .bitmap "bitmap"

/-- A panel. -/
def panelPart (e : Element) (comments : Bool) : Part :=
  e.part "wxPanel" (e.placementTags "" ++ e.windowTags comments)

/-- The rows and columns of a grid. -/
def gridTags (e : Element) : List Xml :=
  e.textTag .rows "rows" ++ e.textTag .cols "cols" ++ e.textTag .vgap "vgap"
    ++ e.textTag .hgap "hgap"

/-- What a node becomes in the resource, given the elements above it, nearest first. -/
def shape (e : Element) (comments : Bool) (above : List Element) : Shape :=
  let inSizer := above.head?.any fun parent => parent.kind.isSizer
  let book := (above.find? fun a => a.kind.isBook).map Element.kind
  let bitmap := e.bitmapTag comments .bitmap "bitmap"
  match e.kind with
  | .project | .folder | .images => .absent
  | .timer | .contextMenuEvent =>
    if comments then
      e.placedRemark inSizer (.ofClass "wxBoxSizer" [.comment (" " ++ e.unsupportedText ++ " ")])
    else .absent
  | .popupTransientWindow =>
    e.placedRemark inSizer (e.part "wxBoxSizer" [.comment (" " ++ e.unsupportedText ++ " ")])
  | .dialog | .frame => .plain (e.windowPart comments)
  | .wizard =>
    .plain (e.part "wxWizard" (e.textTag .title "title" ++ bitmap ++ e.placementTags ""))
  | .panelForm => .plain (e.panelPart comments)
  | .menuBarForm | .menuBar => e.placed inSizer (e.part "wxMenuBar" (e.placementTags ""))
  | .toolBarForm | .toolBar | .auiToolBar =>
    e.placed inSizer (e.part e.kind.className (e.placementTags "" ++ e.windowTags comments))
  | .boxSizer | .verticalBoxSizer =>
    e.placed inSizer (e.part "wxBoxSizer" (e.orientationTag :: e.pairTag .minSize "minsize"))
  | .gridSizer | .flexGridSizer =>
    e.placed inSizer (e.part e.kind.className (e.gridTags ++ e.pairTag .minSize "minsize"))
  | .staticBoxSizer | .staticCheckboxBoxSizer | .staticRadioBtnBoxSizer =>
    e.placed inSizer e.boxSizerPart
  | .stdDialogButtonSizer => e.placed inSizer e.buttonSizerPart
  | .spacer => .plain e.spacerPart
  | .bookPage => .wrapped (e.pagePart comments book) (e.panelPart comments)
  | .menu | .subMenu => .plain (e.part "wxMenu" (e.textTag .label "label" ++ bitmap))
  | .menuItem => .plain (e.menuItemPart comments)
  | .separator | .toolSeparator => .plain (.ofClass "separator" [])
  | .tool | .toolDropdown => .plain (e.toolPart comments)
  | .ribbonButton =>
    .plain (e.part "button" (e.textTag .label "label" ++ e.textTag .helpString "help" ++ bitmap))
  | _ => e.placed inSizer (e.widgetPart comments)

end Element

end FormDesign
