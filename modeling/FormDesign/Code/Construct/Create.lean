import FormDesign.Code.Construct.Args
import FormDesign.Code.Construct.Attach
import FormDesign.Code.Construct.Settings

/-!
# Creating

How the object of a node comes to be, by the category of its kind.
-/

namespace FormDesign

/-- The buttons that a dialog button sizer can hold, in the order they are added. -/
def dialogButtons : List (Property × String) :=
  [(.okButton, "wxID_OK"), (.yesButton, "wxID_YES"), (.saveButton, "wxID_SAVE"),
    (.applyButton, "wxID_APPLY"), (.noButton, "wxID_NO"), (.cancelButton, "wxID_CANCEL"),
    (.closeButton, "wxID_CLOSE"), (.helpButton, "wxID_HELP"),
    (.contextHelpButton, "wxID_CONTEXT_HELP")]

namespace Element

/-- The buttons that the node asks for. -/
def buttons (e : Element) : List String :=
  (dialogButtons.filter fun (p, _) => e.flag p).map Prod.snd

/-- The kind of a menu item or tool. -/
def itemKind (e : Element) : String :=
  if e.text .kind = "" then "wxITEM_NORMAL" else e.text .kind

/-- The label of a menu item with its shortcut. -/
def menuLabel (e : Element) : String :=
  if e.text .shortcut = "" then e.text .label else e.text .label ++ "\t" ++ e.text .shortcut

end Element

namespace Site

/-- Creates the object of a node, with a warning when its class is not the one asked for. -/
def create (s : Site) (p : Place) (args : List Expr) (initMethod : Option String) : List Step :=
  let resolved := resolveClass s.dialect p.element
  (resolved.warning.map Step.warn).toList
    ++ [.stmt (.create (s.var p.item) resolved.token args initMethod)]

/-- Creates a sizer. A dialog button sizer gets its buttons at once. -/
def createSizer (s : Site) (p : Place) : List Step :=
  let v := s.var p.item
  let token := (resolveClass s.dialect p.element).token
  let addButton (id : String) :=
    Step.call (.var v) "AddButton" [.new "wxButton" .core [s.window p, .id id]]
  .stmt (.create v token (s.sizerArgs p) none)
    :: if p.kind = .stdDialogButtonSizer then
        p.element.buttons.map addButton ++ [Step.call (.var v) "Realize" []]
      else []

/-- Adds room to the sizer around. -/
def addSpacer (s : Site) (p : Place) : List Step :=
  let e := p.element
  match s.sizerParent? p with
  | none => []
  | some sizer =>
    let placement :=
      if e.sizerFlags = "" then [] else [Expr.const e.sizerFlags, .int e.borderSize]
    [Step.call (.var sizer) "Add"
      ([.int (e.int .width), .int (e.int .height), .int (e.int .proportion)] ++ placement)]

/-- A menu as the argument of its items. -/
def menuArg : Target → Expr
  | .var v => .var v
  | _ => .self

/-- Creates a menu item and appends it to its menu. -/
def createMenuItem (s : Site) (p : Place) : List Step :=
  let e := p.element
  let v := s.var p.item
  match s.menuParent? p with
  | none => []
  | some menu =>
    if p.kind = .separator then [Step.call menu "AppendSeparator" []]
    else
      s.create p
          [menuArg menu, e.idArg, .text e.menuLabel, .text (e.text .helpString), .const e.itemKind]
          none
        ++ ((s.bitmap? e .bitmap).map fun b => Step.call (.var v) "SetBitmap" [b]).toList
        ++ [Step.call menu "Append" [.var v]]
        ++ Step.when (e.flag .checked) (Step.call (.var v) "Check" [])
        ++ Step.when (e.flag .disabled) (Step.call (.var v) "Enable" [.bool false])

/-- Adds a tool to its bar, and creates the menu below it. -/
def createTool (s : Site) (p : Place) : List Step :=
  let e := p.element
  let bitmap := (s.bitmap? e .bitmap).getD (.const "wxNullBitmap")
  let label := Expr.text (e.text .label)
  let help := Expr.text (e.text .helpString)
  match s.toolParent? p with
  | none => []
  | some bar =>
    match p.kind with
    | .toolSeparator => [Step.call bar "AddSeparator" []]
    | .ribbonButton => [Step.call bar "AddButton" [e.idArg, label, bitmap, help]]
    | .toolDropdown =>
      Step.call bar "AddTool" [e.idArg, label, bitmap, help, .const "wxITEM_DROPDOWN"]
        :: if p.children = [] then []
          else [.stmt (.create (dropdownVar p.item) (s.dialect.classToken "wxMenu" .core) [] none)]
    | _ => [Step.call bar "AddTool" [e.idArg, label, bitmap, help, .const e.itemKind]]

/-- Creates a window and tells it its settings. A book page is added to its book at once, so that
the pages below it find it there. -/
def createWindow (s : Site) (p : Place) : List Step :=
  s.create p (s.args p) none ++ s.windowSettings p ++ s.kindSettings p
    ++ if p.kind = .bookPage then s.addPage p else []

/-- Creates the object of a node. -/
def createNode (s : Site) (p : Place) : List Step :=
  match p.kind.category with
  | .sizer => s.createSizer p
  | .spacer => s.addSpacer p
  | .menuBar | .menu => s.create p [] none
  | .menuItem => s.createMenuItem p
  | .tool => s.createTool p
  | .timer => s.create p [.self] (some "SetOwner")
  | _ => s.createWindow p

end Site

end FormDesign
