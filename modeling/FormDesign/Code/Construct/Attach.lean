import FormDesign.Code.Construct.Site

/-!
# Attaching

How a finished object takes its place in its parent: in a sizer, in a book, in a splitter, in a menu
or in a tool bar.
-/

namespace FormDesign.Site

/-- Adds a page to its book. A page below another page becomes a sub page of the page added last. -/
def addPage (s : Site) (p : Place) : List Step :=
  let page := Expr.var (s.var p.item)
  let label := Expr.text (p.element.text .label)
  match p.parent? with
  | none => []
  | some parent =>
    if p.kind = .bookPage && parent.kind = .bookPage then
      match p.above.find? fun i => i.kind.isBook with
      | some book => [Step.call (.var (s.var book)) "AddSubPage" [page, label]]
      | none => []
    else if parent.kind.isBook then
      let selected := if p.element.flag .select then [Expr.bool true] else []
      [Step.call (.var (s.var parent)) "AddPage" ([page, label] ++ selected)]
    else []

/-- Puts an object into its parent: into a sizer with its flags and border, a sizer into its window,
and a window into its book. -/
def attach (s : Site) (p : Place) : List Step :=
  let e := p.element
  let object := Expr.var (s.var p.item)
  match p.parent? with
  | none => []
  | some parent =>
    if parent.kind.isSizer then
      let flags := if e.sizerFlags = "" then Expr.int 0 else .const e.sizerFlags
      [Step.call (.var (s.var parent)) "Add"
        [object, .int (e.int .proportion), flags, .int e.borderSize]]
    else if p.kind.isSizer then
      let target : Target :=
        if parent.kind.isForm then .form
        else if parent.kind = .collapsiblePane then
          .result (.call (.var (s.var parent)) "GetPane" [])
        else .var (s.var parent)
      [Step.call target "SetSizerAndFit" [object]]
    else s.addPage p

/-- The windows that a splitter divides. -/
def panes (p : Place) : List Item :=
  p.children.filter fun i => !i.kind.isSizer && i.kind.category != .timer

/-- Divides a splitter between the first two of its windows. -/
def split (s : Site) (p : Place) : List Step :=
  let e := p.element
  let call := Step.call (.var (s.var p.item))
  match panes p with
  | [] => []
  | [only] => [call "Initialize" [.var (s.var only)]]
  | first :: second :: _ =>
    let method :=
      if e.text .splitMode = "wxSPLIT_HORIZONTAL" then "SplitHorizontally" else "SplitVertically"
    let sash := if e.int .sashPos ≠ 0 then [Expr.int (e.int .sashPos)] else []
    [call method ([.var (s.var first), .var (s.var second)] ++ sash)]

/-- Appends a menu to what it belongs to. -/
def appendMenu (s : Site) (p : Place) : List Step :=
  match s.menuParent? p with
  | none => []
  | some parent =>
    let method := if p.kind = .subMenu then "AppendSubMenu" else "Append"
    [Step.call parent method [.var (s.var p.item), .text (p.element.text .label)]]

/-- Gives a tool the menu below it. -/
def setDropdown (s : Site) (p : Place) : List Step :=
  match s.toolParent? p with
  | none => []
  | some bar =>
    if p.children = [] then []
    else [Step.call bar "SetDropdownMenu" [p.element.idArg, .var (dropdownVar p.item)]]

/-- Gives a bar to its frame with the given method, if the form is a frame. -/
def giveToFrame (s : Site) (p : Place) (method : String) : Step :=
  Step.call .form method [.var (s.var p.item)]

/-- What is done with an object when everything below it exists. -/
def finish (s : Site) (p : Place) : List Step :=
  let inFrame := s.formKind = .frame
  match p.kind with
  | .toolBar | .auiToolBar =>
    [Step.call (.var (s.var p.item)) "Realize" []]
      ++ Step.when (inFrame && p.isChildOfForm) (s.giveToFrame p "SetToolBar")
      ++ s.attach p
  | .menuBar => Step.when inFrame (s.giveToFrame p "SetMenuBar")
  | .menu | .subMenu => s.appendMenu p
  | .toolDropdown => s.setDropdown p
  | .bookPage => []
  | .splitterWindow => s.split p ++ s.attach p
  | .statusBar =>
    if inFrame && p.isChildOfForm then [s.giveToFrame p "SetStatusBar"] else s.attach p
  | kind =>
    match kind.category with
    | .menuItem | .tool | .timer | .spacer => []
    | _ => s.attach p

end FormDesign.Site
